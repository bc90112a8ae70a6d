/-
PooledCollateral.Proofs.Pool.NoFault — a pool never faults.

A pool is `Fit` at a time when it is sound, its accounts are covered, and its
collateral and its fees are amounts. On a fit pool no call faults, whatever it
asks for, as long as the amounts it names are amounts; and wherever it fails, the
pool stays fit (`perform_faultless`). So no pool that is reached by calls that do
not go back in time, by rolling calls back, or by reading a pool back from its
snapshot ever faults (`reached_never_faults`). Only the ratio in bips, which no
operation forms unless the comparison with a threshold has failed, may do so.
-/
import PooledCollateral.Pool.Audit
import PooledCollateral.Proofs.FaultlessBooks
import PooledCollateral.Proofs.Pool.Clearing
import PooledCollateral.Proofs.Pool.Listing
import PooledCollateral.Proofs.Pool.Undo

namespace PooledCollateral.Pool

open PooledCollateral.Action

variable {p q fresh : Pool} {now t clock : ℕ} {settings : Settings} {α : Type}

/-! ## Fit pools -/

/-- The pool is sound, its accounts are covered, and what it holds are amounts. -/
structure Fit (now : ℕ) (p : Pool) : Prop where
  sound : p.Sound
  covered : p.shares.Covered now
  collateral_le : p.collateral ≤ Amount.max
  feeReserve_le : p.feeReserve ≤ Amount.max

namespace Fit

theorem mono (h : p.Fit now) (ht : now ≤ t) : p.Fit t := { h with covered := h.covered.mono ht }

theorem safe (h : p.Fit now) : p.shares.Safe now := ⟨h.sound.shares, h.covered⟩

theorem balance_le_max (h : p.Fit now) (holder : Address) : p.balanceOf holder ≤ Amount.max := by
  rw [balanceOf, ShareBook.balanceOf_eq]
  exact h.safe.balance_le_max holder

theorem supply_le_max (h : p.Fit now) : p.shares.supply ≤ Amount.max := h.sound.shares.supply_le

/-- What can be read off a pool decides whether it is fit. -/
theorem of_books (h : p.Fit now) (hbooks : q.books = p.books) : q.Fit now := by
  have htotals : q.totals = p.totals := congrArg Books.totals hbooks
  have haccounts : q.shares.accountOf = p.shares.accountOf := by
    funext holder
    have hrow : q.holderRow holder = p.holderRow holder :=
      congrFun (congrArg Books.row hbooks) holder
    rw [holderRow_eq, holderRow_eq] at hrow
    exact Account.ext_locks (congrArg HolderRow.balance hrow) (congrArg HolderRow.locks hrow)
  refine ⟨h.sound.of_books hbooks, fun holder => haccounts ▸ h.covered holder, ?_, ?_⟩
  · exact (congrArg Totals.collateral htotals).trans_le h.collateral_le
  · exact (congrArg Totals.feeReserve htotals).trans_le h.feeReserve_le

end Fit

theorem fit_create (h : create settings = .ok p) : p.Fit 0 := by
  obtain ⟨-, rfl⟩ := create_ok h
  exact ⟨sound_create h, ShareBook.covered_of_fresh 0, Nat.zero_le _, Nat.zero_le _⟩

/-! ## Queries -/

/-- An entry buys an amount of shares. -/
theorem entryShares_le_max {collateral shares : ℕ} {price : Option Price}
    (hcollateral : collateral ≤ Amount.max) (h : p.entryShares collateral price = .ok shares) :
    shares ≤ Amount.max := by
  unfold entryShares at h
  dsimp only at h
  split at h
  · simp only [Checked.bind_eq_ok_iff] at h
    obtain ⟨_, -, _, -, _, -, hreturn⟩ := h
    cases hreturn
    exact hcollateral
  · simp only [Checked.bind_eq_ok_iff] at h
    obtain ⟨_, -, _, hbought, _, -, hreturn⟩ := h
    cases hreturn
    exact Amount.mulDiv_le_max hbought

/-- An entry is quoted only if the collateral that it leaves is an amount. -/
theorem quoteEntry_le_max {collateral : ℕ} {price : Option Price} {quote : EntryQuote}
    (h : p.quoteEntry collateral price = .ok quote) : quote.collateralAfter ≤ Amount.max := by
  simp only [quoteEntry, Checked.bind_eq_ok_iff, Amount.add_eq_ok_iff] at h
  obtain ⟨_, -, _, -, _, -, _, ⟨rfl, hle⟩, hreturn⟩ := h
  cases hreturn
  exact hle

namespace Fit

variable (h : p.Fit now) (holder : Address)

include h

theorem faultless_lockedBalance : Checked.Faultless (p.lockedBalance holder now) :=
  h.safe.faultless_lockedBalance holder

theorem faultless_claim : Checked.Faultless (p.claim holder) :=
  FeeBook.faultless_claimable (h.balance_le_max holder)

theorem faultless_claimableFees : Checked.Faultless (p.claimableFees holder) :=
  (h.faultless_claim holder).bind fun _ _ => Checked.faultless_pure _

theorem faultless_indebtedShares : Checked.Faultless (p.indebtedShares holder) :=
  FeeBook.faultless_indebtedShares h.sound.fees h.supply_le_max

theorem faultless_restriction : Checked.Faultless (p.restriction holder now) :=
  (h.faultless_lockedBalance holder).bind fun _ _ =>
    (h.faultless_indebtedShares holder).bind fun _ _ => Checked.faultless_pure _

theorem faultless_transferable : Checked.Faultless (p.transferable holder now) :=
  (h.faultless_restriction holder).bind fun _ _ => Checked.faultless_pure _

/-- An entry forms the products of its collateral, and of the fees that nobody
owns with the price. -/
theorem faultless_quoteEntry {collateral : ℕ} {price : Option Price}
    (hcollateral : collateral ≤ Amount.max)
    (hprice : ∀ quoted ∈ price, quoted.numerator ≤ Amount.max) :
    Checked.Faultless (p.quoteEntry collateral price) := by
  have hunowned : p.fees.unowned p.feeReserve ≤ Amount.max := (Nat.sub_le _ _).trans h.feeReserve_le
  have hleftover : Checked.Faultless (p.leftoverFeeValue price) := by
    unfold leftoverFeeValue
    dsimp only
    split
    · exact Checked.faultless_of_ok rfl
    · cases price with
      | none => exact Checked.faultless_reject _
      | some quoted => exact Amount.faultless_mulDivUp hunowned (hprice quoted rfl) _
  have hshares : Checked.Faultless (p.entryShares collateral price) := by
    unfold entryShares
    dsimp only
    split
    · exact hleftover.bind fun _ _ => (Amount.faultless_add _ _).bind fun _ _ =>
        Checked.faultless_require.bind fun _ _ => Checked.faultless_pure _
    · exact Checked.faultless_require.bind fun _ _ =>
        (Amount.faultless_mulDiv hcollateral h.supply_le_max _).bind fun _ _ =>
          Checked.faultless_require.bind fun _ _ => Checked.faultless_pure _
  exact Checked.faultless_require.bind fun _ _ => hshares.bind fun shares hbought =>
    (FeeBook.faultless_entryDebt (entryShares_le_max hcollateral hbought)).bind fun _ _ =>
      (Amount.faultless_add _ _).bind fun _ _ => Checked.faultless_pure _

theorem faultless_exitFees {shares : ℕ} (hshares : shares ≤ Amount.max) :
    Checked.Faultless (p.exitFees holder shares (p.balanceOf holder)) := by
  refine (h.faultless_claimableFees holder).bind fun claimable hclaimable => ?_
  split
  · exact Checked.faultless_pure _
  · exact Amount.faultless_mulDiv (claimableFees_le_max hclaimable) hshares _

/-- Once the shares have been compared with the balance they are an amount. -/
theorem faultless_quoteExit (shares : ℕ) : Checked.Faultless (p.quoteExit holder shares now) := by
  refine Checked.faultless_require.bind fun _ _ =>
    (h.faultless_lockedBalance holder).bind fun locked _ => ?_
  refine Checked.Faultless.bind ?_ fun _ hallowed => ?_
  · exact Checked.faultless_require.bind fun _ _ => Checked.faultless_require
  have hshares : shares ≤ Amount.max := by
    obtain ⟨_, hbalance, -⟩ := Checked.bind_eq_ok_iff.mp hallowed
    exact (require_eq_ok_iff.mp hbalance).trans (h.balance_le_max holder)
  exact (Amount.faultless_mulDiv hshares h.collateral_le _).bind fun _ _ =>
    Checked.faultless_require.bind fun _ _ => (h.faultless_exitFees holder hshares).bind fun _ _ =>
      (FeeBook.faultless_settlement h.sound.fees hshares).bind fun _ _ =>
        (Amount.faultless_sub _ _).bind fun _ _ => (Amount.faultless_sub _ _).bind fun _ _ =>
          Checked.faultless_pure _

omit h in
theorem faultless_checkResiduals (p : Pool) (quote : ExitQuote) :
    Checked.Faultless (p.checkResiduals quote) :=
  Checked.faultless_require.bind fun _ _ => Checked.faultless_require

theorem faultless_planExit (shares : ℕ) (backing : Backing) :
    Checked.Faultless (p.planExit holder shares backing now) :=
  (h.faultless_quoteExit holder shares).bind fun quote _ =>
    (Guard.faultless_exitRatio _ _ _ _).bind fun _ _ =>
      (faultless_checkResiduals p quote).bind fun _ _ => Checked.faultless_pure _

omit h in
theorem faultless_guardSelfClose (p : Pool) (quote : ExitQuote) (backing : Backing) (burn : ℕ) :
    Checked.Faultless (p.guardSelfClose quote backing burn) := by
  refine (Amount.faultless_sub _ _).bind fun left _ => ?_
  dsimp only
  split
  · exact Checked.faultless_pure _
  · refine (CollateralRatio.faultless_backs _ _ _).bind fun backed hbacked => ?_
    cases backed with
    | true => exact Checked.faultless_pure _
    | false =>
      -- what is not backed has a worth, so the ratio that the refusal names is defined
      have hshort := (CollateralRatio.backs_ok hbacked).not.mp Bool.false_ne_true
      refine (CollateralRatio.faultless_notWorse _ _ _ _).bind fun sustained _ => ?_
      cases sustained with
      | true => exact Checked.faultless_pure _
      | false =>
        exact (CollateralRatio.faultless_ratioBips hshort).bind fun _ _ =>
          Checked.faultless_reject _

/-- A self-close exit shares out a liability that is an amount. -/
theorem faultless_planSelfClose (shares : ℕ) {backing : Backing}
    (hliability : backing.liability ≤ Amount.max) :
    Checked.Faultless (p.planSelfClose holder shares backing now) := by
  refine (h.faultless_quoteExit holder shares).bind fun quote hquote => ?_
  have hcollateral : quote.collateral ≤ Amount.max :=
    (quoteExit_ok hquote).collateral_le.trans h.collateral_le
  refine (Burn.faultless_required hliability hcollateral).bind fun burn _ =>
    (faultless_guardSelfClose p quote backing burn).bind fun _ _ =>
      (faultless_checkResiduals p quote).bind fun _ _ => ?_
  exact (Checked.faultless_of_ok (Burn.fund_eq burn quote.fees)).bind fun _ _ =>
    Checked.faultless_pure _

omit holder in
theorem faultless_verify : Checked.Faultless p.verify := by
  have hclaims : Checked.Faultless p.totalClaims := by
    unfold totalClaims
    generalize 0 = sum
    induction p.holders generalizing sum with
    | nil => exact Checked.faultless_pure sum
    | cons holder holders ih =>
      rw [List.foldlM_cons]
      exact ((h.faultless_claim holder).bind fun _ _ => Amount.faultless_add _ _).bind fun next _ =>
        ih next
  exact (Amount.faultless_fit _).bind fun _ _ => Checked.faultless_require.bind fun _ _ =>
    (Amount.faultless_fit _).bind fun _ _ => (Amount.faultless_fit _).bind fun _ _ =>
      Checked.faultless_require.bind fun _ _ => hclaims.bind fun _ _ => Checked.faultless_require

end Fit

/-! ## Parts of a pool -/

theorem faultless_onShares {act : Action ShareBook α} (h : Faultless (ShareBook.Safe now) act) :
    Faultless (Fit now) (onShares act) :=
  faultless_onPart h (fun _ hp => hp.safe) fun _ _ hp hb =>
    { hp with sound := { hp.sound with shares := hb.sound }, covered := hb.covered }

theorem faultless_onFees {act : Action FeeBook α} (h : Faultless FeeBook.Sound act) :
    Faultless (Fit now) (onFees act) :=
  faultless_onPart h (fun _ hp => hp.sound.fees) fun _ _ hp hb =>
    { hp with sound := { hp.sound with fees := hb } }

theorem faultless_setCollateral {collateral : ℕ} (h : collateral ≤ Amount.max) :
    Faultless (Fit now) (modify fun pool : Pool => { pool with collateral }) :=
  faultless_modify fun _ hp => { hp with sound := { hp.sound with }, collateral_le := h }

theorem faultless_setFeeReserve {feeReserve : ℕ} (h : feeReserve ≤ Amount.max) :
    Faultless (Fit now) (modify fun pool : Pool => { pool with feeReserve }) :=
  faultless_modify fun _ hp => { hp with sound := { hp.sound with }, feeReserve_le := h }

/-! ## Operations -/

theorem enter_faultless (holder : Address) {collateral : ℕ} {price : Option Price}
    (hcollateral : collateral ≤ Amount.max)
    (hprice : ∀ quoted ∈ price, quoted.numerator ≤ Amount.max) :
    Faultless (Fit now) (enter holder collateral price now) := by
  unfold enter
  refine faultless_get_bind fun p hp =>
    faultless_lift_bind (hp.faultless_quoteEntry hcollateral hprice) fun quote hquote => ?_
  have hafter : quote.collateralAfter ≤ Amount.max := quoteEntry_le_max hquote
  exact (faultless_onShares (ShareBook.faultless_mint _ _ _)).bind fun _ =>
    (faultless_onFees (FeeBook.faultless_charge _ _)).bind fun _ =>
      (faultless_setCollateral hafter).bind fun _ => faultless_pure _

/-- Whatever a quote says, less is left than there was. -/
theorem carryOut_faultless (holder : Address) (quote : ExitQuote) :
    Faultless (Fit now) (carryOut holder quote now) := by
  unfold carryOut
  refine faultless_get_bind fun p hp =>
    faultless_lift_bind (Amount.faultless_sub _ _) fun feeReserve hfees =>
      faultless_lift_bind (Amount.faultless_sub _ _) fun collateral hcollateral => ?_
  obtain ⟨rfl, -⟩ := Amount.sub_eq_ok_iff.mp hfees
  obtain ⟨rfl, -⟩ := Amount.sub_eq_ok_iff.mp hcollateral
  refine (faultless_onShares (ShareBook.faultless_burn _ _)).bind fun _ =>
    (faultless_onFees (FeeBook.faultless_settle _ _)).bind fun _ => ?_
  exact faultless_modify fun _ hq =>
    { hq with
      sound := { hq.sound with }
      collateral_le := (Nat.sub_le _ _).trans hp.collateral_le
      feeReserve_le := (Nat.sub_le _ _).trans hp.feeReserve_le }

theorem exit_faultless (holder : Address) (shares : ℕ) (backing : Backing) :
    Faultless (Fit now) (exit holder shares backing now) := by
  unfold exit
  exact faultless_get_bind fun p hp =>
    faultless_lift_bind (hp.faultless_planExit holder shares backing) fun quote _ =>
      (carryOut_faultless holder quote).bind fun _ => faultless_pure _

theorem applySelfClose_faultless (holder : Address) (plan : SelfClosePlan) :
    Faultless (Fit now) (applySelfClose holder plan now) :=
  (carryOut_faultless holder plan.quote).bind fun _ => faultless_pure _

theorem withdrawFees_faultless (holder : Address) (amount : ℕ) :
    Faultless (Fit now) (withdrawFees holder amount) := by
  unfold withdrawFees
  refine faultless_get_bind fun p hp =>
    faultless_lift_bind (hp.faultless_claimableFees holder) fun _ _ =>
      faultless_lift_bind Checked.faultless_require fun _ _ =>
        faultless_lift_bind (Amount.faultless_sub _ _) fun feeReserve hfees => ?_
  obtain ⟨rfl, -⟩ := Amount.sub_eq_ok_iff.mp hfees
  exact (faultless_onFees (FeeBook.faultless_charge _ _)).bind fun _ =>
    faultless_setFeeReserve ((Nat.sub_le _ _).trans hp.feeReserve_le)

theorem payFeeDebt_faultless (holder : Address) (amount : ℕ) :
    Faultless (Fit now) (payFeeDebt holder amount) := by
  unfold payFeeDebt
  refine faultless_lift_bind Checked.faultless_require fun _ _ => faultless_get_bind fun p _ =>
    faultless_lift_bind (Amount.faultless_add _ _) fun feeReserve hfees => ?_
  obtain ⟨rfl, hle⟩ := Amount.add_eq_ok_iff.mp hfees
  exact (faultless_onFees (FeeBook.faultless_reduce _ _)).bind fun _ => faultless_setFeeReserve hle

theorem depositFees_faultless (amount : ℕ) : Faultless (Fit now) (depositFees amount) := by
  unfold depositFees
  refine faultless_get_bind fun p _ =>
    faultless_lift_bind (Amount.faultless_add _ _) fun feeReserve hfees => ?_
  obtain ⟨rfl, hle⟩ := Amount.add_eq_ok_iff.mp hfees
  exact faultless_setFeeReserve hle

theorem receiveCollateral_faultless (amount : ℕ) :
    Faultless (Fit now) (receiveCollateral amount) := by
  unfold receiveCollateral
  refine faultless_get_bind fun p _ =>
    faultless_lift_bind (Amount.faultless_add _ _) fun collateral hcollateral => ?_
  obtain ⟨rfl, hle⟩ := Amount.add_eq_ok_iff.mp hcollateral
  exact faultless_setCollateral hle

/-- The shares have been compared with the balance and the collateral with what
there is before either is taken. -/
theorem payout_faultless (holder : Address) (collateral shares : ℕ) :
    Faultless (Fit now) (payout holder collateral shares now) := by
  unfold payout
  refine faultless_get_bind fun p hp =>
    faultless_lift_bind Checked.faultless_require fun _ hshares =>
      faultless_lift_bind Checked.faultless_require fun _ hcollateral => ?_
  have hshares_le := (require_eq_ok_iff.mp hshares).trans (hp.balance_le_max holder)
  refine (faultless_onFees (FeeBook.faultless_seize holder hshares_le)).bind fun _ =>
    (faultless_onShares (ShareBook.faultless_burn _ _)).bind fun _ =>
      faultless_lift_bind (Amount.faultless_take (require_eq_ok_iff.mp hcollateral))
        fun left hleft => ?_
  obtain ⟨rfl, -⟩ := Amount.take_eq_ok_iff.mp hleft
  exact faultless_setCollateral ((Nat.sub_le _ _).trans hp.collateral_le)

theorem updateSettings_faultless (settings : Settings) :
    Faultless (Fit now) (updateSettings settings) := by
  have hcheck : Checked.Faultless settings.check :=
    Checked.faultless_require.bind fun _ _ => Checked.faultless_require
  refine faultless_lift_bind hcheck fun _ hvalid => faultless_modify fun _ hp => ?_
  exact { hp with sound := { hp.sound with settings := Settings.check_eq_ok_iff.mp hvalid } }

theorem transfer_faultless (sender receiver : Address) (amount : ℕ) :
    Faultless (Fit now) (transfer sender receiver amount now) := by
  intro p hp
  unfold transfer onShares
  simp only [ensures_bind, ensures_get, ensures_onPart]
  refine ensures_lift.mpr ⟨fun restriction hrestriction => ?_, fun _ he =>
    ⟨(hp.faultless_restriction sender).error_ne he, hp⟩⟩
  obtain ⟨locked, hlocked, hrestriction⟩ := Checked.bind_eq_ok_iff.mp hrestriction
  obtain ⟨_, -, hreturn⟩ := Checked.bind_eq_ok_iff.mp hrestriction
  cases hreturn
  have hfit : ∀ {b : ShareBook}, b.Safe now → ({ p with shares := b } : Pool).Fit now := fun hb =>
    { hp with sound := { hp.sound with shares := hb.sound }, covered := hb.covered }
  have hheld : locked = (p.shares.accountOf sender).held now := hp.covered.lockedBalance hlocked
  refine (ShareBook.faultless_transfer hp.safe hheld).mono ?_ ?_
  · exact fun _ _ hb => hfit hb
  · exact fun _ _ hb => ⟨hb.1, hfit hb.2⟩

theorem cleanup_faultless (holder : Address) (limit : ℕ) :
    Faultless (Fit now) (cleanup holder limit now) := by
  unfold cleanup
  refine (faultless_modify fun p hp => ?_).bind fun _ => faultless_get_bind fun _ _ =>
    faultless_pure _
  have hsafe := hp.safe.cleanup holder limit
  exact { hp with sound := { hp.sound with shares := hsafe.sound }, covered := hsafe.covered }

/-! ## Every call -/

/-- The amounts that a call names. -/
def Call.amounts : Call → List ℕ
  | .enter _ collateral price _ =>
    collateral :: price.toList.flatMap fun quoted => [quoted.numerator, quoted.denominator]
  | .quoteExit _ shares _ => [shares]
  | .exit _ shares backing _ =>
    [shares, backing.liability, backing.price.numerator, backing.price.denominator]
  | .planSelfClose _ shares backing _ =>
    [shares, backing.liability, backing.price.numerator, backing.price.denominator]
  | .applySelfClose _ plan _ =>
    [plan.quote.shares, plan.quote.collateral, plan.quote.fees, plan.quote.debtForgiven,
      plan.quote.creditUsed, plan.burn]
  | .withdrawFees _ amount => [amount]
  | .payFeeDebt _ amount => [amount]
  | .depositFees amount => [amount]
  | .receiveCollateral amount => [amount]
  | .payout _ collateral shares _ => [collateral, shares]
  | .updateSettings settings =>
    [settings.exitRatio, settings.minEntry, settings.minSupplyAfterExit,
      settings.minCollateralAfterExit]
  | .transfer _ _ amount _ => [amount]
  | .cleanup _ _ _ => []

/-- The amounts of a call are amounts. -/
def Call.InRange (call : Call) : Prop := ∀ amount ∈ call.amounts, amount ≤ Amount.max

instance (call : Call) : Decidable call.InRange := inferInstanceAs (Decidable (∀ _ ∈ _, _))

/-- No call faults on a fit pool, and whatever becomes of it the pool stays fit. -/
theorem perform_faultless {call : Call} (hrange : call.InRange)
    (htime : ∀ time ∈ call.time?, time = now) : Faultless (Fit now) (perform call) := by
  cases call with
  | enter holder collateral price time =>
    obtain rfl := htime time rfl
    have hprice : ∀ quoted ∈ price, quoted.numerator ≤ Amount.max := by
      rintro quoted rfl
      exact hrange _ (by simp [Call.amounts])
    exact (enter_faultless holder (hrange _ List.mem_cons_self) hprice).bind fun _ =>
      faultless_pure _
  | quoteExit holder shares time =>
    obtain rfl := htime time rfl
    exact faultless_get_bind fun p hp =>
      faultless_lift_bind (hp.faultless_quoteExit holder shares) fun _ _ => faultless_pure _
  | exit holder shares backing time =>
    obtain rfl := htime time rfl
    exact (exit_faultless holder shares backing).bind fun _ => faultless_pure _
  | planSelfClose holder shares backing time =>
    obtain rfl := htime time rfl
    have hliability : backing.liability ≤ Amount.max := hrange _ (by simp [Call.amounts])
    exact faultless_get_bind fun p hp =>
      faultless_lift_bind (hp.faultless_planSelfClose holder shares hliability) fun _ _ =>
        faultless_pure _
  | applySelfClose holder plan time =>
    obtain rfl := htime time rfl
    exact (applySelfClose_faultless holder plan).bind fun _ => faultless_pure _
  | withdrawFees holder amount =>
    exact (withdrawFees_faultless holder amount).bind fun _ => faultless_pure _
  | payFeeDebt holder amount =>
    exact (payFeeDebt_faultless holder amount).bind fun _ => faultless_pure _
  | depositFees amount => exact (depositFees_faultless amount).bind fun _ => faultless_pure _
  | receiveCollateral amount =>
    exact (receiveCollateral_faultless amount).bind fun _ => faultless_pure _
  | payout holder collateral shares time =>
    obtain rfl := htime time rfl
    exact (payout_faultless holder collateral shares).bind fun _ => faultless_pure _
  | updateSettings settings =>
    exact (updateSettings_faultless settings).bind fun _ => faultless_pure _
  | transfer sender receiver amount time =>
    obtain rfl := htime time rfl
    exact (transfer_faultless sender receiver amount).bind fun _ => faultless_pure _
  | cleanup holder limit time =>
    obtain rfl := htime time rfl
    exact (cleanup_faultless holder limit).bind fun _ => faultless_pure _

/-! ## Reached pools -/

/-- The pools that a fresh one can become, with the time that has been reached: by
calls, whether or not they succeed; by rolling back all calls since a checkpoint of
the holders that they name; and by reading back a snapshot. -/
inductive Reached (fresh : Pool) : ℕ → Pool → Prop
  | fresh : Reached fresh 0 fresh
  | call {clock : ℕ} {p : Pool} {call : Call} (before : Reached fresh clock p)
    (range : call.InRange) (later : ∀ time ∈ call.time?, clock ≤ time) :
    Reached fresh (call.time?.getD clock) ((perform call).stateAfter p)
  | undone {clock : ℕ} {p : Pool} {holders : List Address} {calls : List Call}
    (before : Reached fresh clock p) (named : ∀ call ∈ calls, call.holders ⊆ holders) :
    Reached fresh clock ((after p calls).restore (p.checkpoint holders))
  | reloaded {clock : ℕ} {p q : Pool} (before : Reached fresh clock p)
    (read : ofSnapshot p.snapshot = .ok q) : Reached fresh clock q

/-- By induction on the way to the pool. What has been rolled back or read back
shows the same books as before. -/
theorem Reached.fit (hfresh : create settings = .ok fresh) (h : Reached fresh clock p) :
    p.Fit clock := by
  induction h with
  | fresh => exact fit_create hfresh
  | @call clock p call _ range later ih =>
    have hkept := perform_faultless range (eq_getD_of_time call.time? clock)
    exact hkept.stateAfter (ih.mono (clock_le_getD later))
  | undone _ named ih => exact ih.of_books (books_restore (after_confined_of_named _ named))
  | @reloaded clock p q _ read ih =>
    obtain ⟨r, hr, hbooks⟩ := ofSnapshot_of_tells ih.sound (tells_snapshot p)
    obtain rfl : r = q := Except.ok.inj (hr.symm.trans read)
    exact ih.of_books hbooks

/-- A run of calls in which time does not run backwards leads to a reached pool. -/
theorem Reached.after {calls : List Call} (h : Reached fresh clock p)
    (hrange : ∀ call ∈ calls, call.InRange)
    (htimes : (clock :: (calls.filterMap Call.time? ++ [now])).Pairwise (· ≤ ·)) :
    ∃ t ≤ now, Reached fresh t (p.after calls) := by
  induction calls generalizing p clock with
  | nil => exact ⟨clock, by simpa using htimes, h⟩
  | cons call rest ih =>
    obtain ⟨hcall, hrest⟩ := List.forall_mem_cons.mp hrange
    obtain ⟨hnotBefore, hlater⟩ := times_cons htimes
    rw [after_cons]
    exact ih (h.call hcall hnotBefore) hrest hlater

/-- Nothing that a pool is asked to do, or asked about, at a time faults. -/
structure FaultFree (now : ℕ) (p : Pool) : Prop where
  perform : ∀ call : Call, call.InRange → (∀ time ∈ call.time?, time = now) →
    (perform call).failure? p ≠ some .fault
  lockedBalance : ∀ holder, Checked.Faultless (p.lockedBalance holder now)
  restriction : ∀ holder, Checked.Faultless (p.restriction holder now)
  transferable : ∀ holder, Checked.Faultless (p.transferable holder now)
  claimableFees : ∀ holder, Checked.Faultless (p.claimableFees holder)
  indebtedShares : ∀ holder, Checked.Faultless (p.indebtedShares holder)
  verify : Checked.Faultless p.verify
  reload : Checked.Faultless (ofSnapshot p.snapshot)

/-- However a pool has been reached, no call that names amounts and does not go back
in time faults, whatever liability and whatever price it brings, and no query does:
each gives a value or is refused for a cause. -/
theorem reached_never_faults (hfresh : create settings = .ok fresh) (h : Reached fresh clock p)
    (hnow : clock ≤ now) : p.FaultFree now := by
  have hfit : p.Fit now := (h.fit hfresh).mono hnow
  obtain ⟨r, hr, -⟩ := ofSnapshot_of_tells hfit.sound (tells_snapshot p)
  exact
    { perform := fun _ hrange htime => (perform_faultless hrange htime).failure?_ne hfit
      lockedBalance := hfit.faultless_lockedBalance
      restriction := hfit.faultless_restriction
      transferable := hfit.faultless_transferable
      claimableFees := hfit.faultless_claimableFees
      indebtedShares := hfit.faultless_indebtedShares
      verify := hfit.faultless_verify
      reload := Checked.faultless_of_ok hr }

/-! ## At the end of the range -/

/-- The largest entry, at a price of nothing for nothing; as many fees, all of them
withdrawn; and a second entry, for which no amount is left. -/
def extremes : List Call :=
  [.enter rich Amount.max (some ⟨0, 0⟩) 3, .depositFees Amount.max, .withdrawFees rich Amount.max,
    .enter poor Amount.max (some ⟨Amount.max, 0⟩) 4]

/-- Of the largest liability the pool backs nothing at a price of one for nothing, and
says so; at the largest price it cannot compare, and refuses; and a payout may leave
a single share. -/
theorem extremes_never_fault :
    let p := after freshPool extremes
    (p.balanceOf rich = Amount.max ∧ p.fees.totalDebt = Amount.max) ∧
      (perform (.exit rich 1 ⟨Amount.max, ⟨1, 0⟩⟩ 5)).failure? p
        = some (.rejected (.belowExitRatio 0 20000)) ∧
      (perform (.exit rich 1 ⟨Amount.max, ⟨Amount.max, 1⟩⟩ 5)).failure? p
        = some (.rejected .overflow) ∧
      (perform (.payout rich 1 (Amount.max - 1) 5)).failure? p = none ∧ p.FaultFree 5 := by
  have hfresh : create looseSettings = .ok freshPool := rfl
  have hrange : ∀ call ∈ extremes, call.InRange := by decide
  have htimes : (0 :: (extremes.filterMap Call.time? ++ [5])).Pairwise (· ≤ ·) := by decide
  have hstart : Reached freshPool 0 freshPool := .fresh
  obtain ⟨t, ht, hreached⟩ := hstart.after hrange htimes
  exact ⟨by decide +kernel, by decide +kernel, by decide +kernel, by decide +kernel,
    reached_never_faults hfresh hreached ht⟩

end PooledCollateral.Pool
