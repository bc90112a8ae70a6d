/-
PooledCollateral.Proofs.Pool.Books — what can be read off a pool, and what no
operation can spoil.

`Pool.books` collects what a pool shows: its totals, its settings, and the row
of every address. A pool is `Sound` when its supply, debt and credit are the
sums of its rows, and amounts, and its settings pass their check.

Whatever an operation does, and wherever it fails, it touches only the rows of
the holders it names, and a sound pool stays sound: this is `Confined`, and
`perform_confined` says it of every call.
-/
import PooledCollateral.Pool.Call
import PooledCollateral.Pool.Records
import PooledCollateral.Proofs.FeeBook
import PooledCollateral.Proofs.ShareBook

namespace PooledCollateral

open PooledCollateral.Action Function

/-- What can be read off a pool. -/
structure Books where
  totals : Totals
  settings : Settings
  row : Address → HolderRow

namespace Pool

/-- What can be read off this pool. -/
def books (p : Pool) : Books where
  totals := p.totals
  settings := p.settings
  row := p.holderRow

theorem holderRow_eq (p : Pool) (holder : Address) :
    p.holderRow holder =
      { address := holder
        balance := (p.shares.accountOf holder).balance
        feeDebt := p.fees.debts.get holder
        feeCredit := p.fees.credits.get holder
        locks := (p.shares.accountOf holder).locks.locks } := by
  simp only [holderRow, balanceOf, debtOf, creditOf, ShareBook.balanceOf_eq, ShareBook.locksOf_eq]

/-- New account, debt and credit of one holder make a new row of that holder. -/
theorem holderRow_update {p q : Pool} {holder : Address} {a : Account} {debt credit : ℕ}
    (haccount : q.shares.accountOf = update p.shares.accountOf holder a)
    (hdebt : q.fees.debts.get = update p.fees.debts.get holder debt)
    (hcredit : q.fees.credits.get = update p.fees.credits.get holder credit) :
    q.holderRow = update p.holderRow holder
      { address := holder, balance := a.balance, feeDebt := debt, feeCredit := credit,
        locks := a.locks.locks } := by
  funext other
  rw [holderRow_eq, haccount, hdebt, hcredit]
  by_cases ho : other = holder
  · subst ho
    simp only [update_self]
  · simp only [update_of_ne ho, holderRow_eq]

/-! ## Soundness -/

/-- The supply, the debt and the credit are the sums of the rows, and the
settings pass their check. -/
structure Sound (p : Pool) : Prop where
  shares : p.shares.Sound
  fees : p.fees.Sound
  settings : p.settings.Valid

/-- A fresh pool is empty, under settings that pass their check. -/
theorem create_ok {settings : Settings} {p : Pool} (h : create settings = .ok p) :
    settings.Valid ∧ p = ⟨settings, 0, 0, ShareBook.empty, FeeBook.empty⟩ := by
  obtain ⟨_, hcheck, hp⟩ := Checked.bind_eq_ok_iff.mp h
  cases hp
  exact ⟨Settings.check_eq_ok_iff.mp hcheck, rfl⟩

theorem sound_create {settings : Settings} {p : Pool} (h : create settings = .ok p) : p.Sound := by
  obtain ⟨hvalid, rfl⟩ := create_ok h
  exact ⟨ShareBook.sound_empty, FeeBook.sound_empty, hvalid⟩

theorem Sound.supply_eq_sum {p : Pool} (h : p.Sound) :
    p.shares.supply = ∑ holder, (p.holderRow holder).balance := by
  rw [h.shares.supply_eq, ShareBook.totalBalance_eq_sum]
  simp only [holderRow_eq]

theorem Sound.debt_eq_sum {p : Pool} (h : p.Sound) :
    p.fees.totalDebt = ∑ holder, (p.holderRow holder).feeDebt := by
  rw [h.fees.debt_eq, Amounts.total_eq_sum]
  rfl

theorem Sound.credit_eq_sum {p : Pool} (h : p.Sound) :
    p.fees.totalCredit = ∑ holder, (p.holderRow holder).feeCredit := by
  rw [h.fees.credit_eq, Amounts.total_eq_sum]
  rfl

/-- A pool with the books of a sound pool is sound. -/
theorem Sound.of_books {p q : Pool} (h : p.Sound) (hbooks : q.books = p.books) : q.Sound := by
  have htotals : q.totals = p.totals := congrArg Books.totals hbooks
  have hrows : q.holderRow = p.holderRow := congrArg Books.row hbooks
  have hsupply : q.shares.supply = p.shares.supply := congrArg Totals.supply htotals
  have hdebt : q.fees.totalDebt = p.fees.totalDebt := congrArg Totals.feeDebt htotals
  have hcredit : q.fees.totalCredit = p.fees.totalCredit := congrArg Totals.feeCredit htotals
  have hsettings : q.settings = p.settings := congrArg Books.settings hbooks
  have hbalances : q.shares.totalBalance = ∑ holder, (q.holderRow holder).balance := by
    simp only [ShareBook.totalBalance_eq_sum, holderRow_eq]
  have hdebts : q.fees.debts.total = ∑ holder, (q.holderRow holder).feeDebt :=
    Amounts.total_eq_sum _
  have hcredits : q.fees.credits.total = ∑ holder, (q.holderRow holder).feeCredit :=
    Amounts.total_eq_sum _
  rw [hrows] at hbalances hdebts hcredits
  refine ⟨⟨?_, ?_⟩, ⟨?_, ?_, ?_, ?_⟩, ?_⟩
  · rw [hsupply, h.supply_eq_sum, hbalances]
  · exact hsupply ▸ h.shares.supply_le
  · rw [hdebt, h.debt_eq_sum, hdebts]
  · rw [hcredit, h.credit_eq_sum, hcredits]
  · exact hdebt ▸ h.fees.debt_le
  · exact hcredit ▸ h.fees.credit_le
  · exact hsettings ▸ h.settings

/-! ## What is touched -/

/-- Nobody's row but those of `holders` is touched, and a sound pool stays
sound. -/
structure Confined (holders : List Address) (p q : Pool) : Prop where
  off : ∀ other, other ∉ holders → q.holderRow other = p.holderRow other
  sound : p.Sound → q.Sound

instance (holders : List Address) : IsPreorder Pool (Confined holders) where
  refl _ := ⟨fun _ _ => rfl, id⟩
  trans _ _ _ h h' :=
    ⟨fun other ho => (h'.off other ho).trans (h.off other ho), fun hs => h'.sound (h.sound hs)⟩

theorem always_onShares {α : Type} {holders : List Address} {act : Action ShareBook α}
    (h : Always (ShareBook.Confined holders) act) : Always (Confined holders) (onShares act) := by
  intro p
  have hconfined : ∀ b, ShareBook.Confined holders p.shares b →
      Confined holders p { p with shares := b } := fun b hb =>
    ⟨fun other ho => by simp only [holderRow_eq, hb.off other ho],
      fun hs => { hs with shares := hb.sound hs.shares }⟩
  exact ensures_onPart.mpr ((h p.shares).mono (fun _ b => hconfined b) fun _ b => hconfined b)

theorem always_onFees {α : Type} {holders : List Address} {act : Action FeeBook α}
    (h : Always (FeeBook.Confined holders) act) : Always (Confined holders) (onFees act) := by
  intro p
  have hconfined : ∀ b, FeeBook.Confined holders p.fees b →
      Confined holders p { p with fees := b } := fun b hb =>
    ⟨fun other ho => by simp only [holderRow_eq, hb.debts other ho, hb.credits other ho],
      fun hs => { hs with fees := hb.sound hs.fees }⟩
  exact ensures_onPart.mpr ((h p.fees).mono (fun _ b => hconfined b) fun _ b => hconfined b)

section

variable {holders : List Address}

theorem always_setCollateral (f : Pool → ℕ) :
    Always (Confined holders) (modify fun p : Pool => { p with collateral := f p }) := fun _ =>
  ensures_modify.mpr ⟨fun _ _ => rfl, fun hs => { hs with }⟩

theorem always_setFeeReserve (f : Pool → ℕ) :
    Always (Confined holders) (modify fun p : Pool => { p with feeReserve := f p }) := fun _ =>
  ensures_modify.mpr ⟨fun _ _ => rfl, fun hs => { hs with }⟩

/-! ## Operations -/

theorem enter_confined (holder : Address) (collateral : ℕ) (price : Option Price) (now : ℕ) :
    Always (Confined [holder]) (enter holder collateral price now) := by
  unfold enter
  refine always_get.bind fun p => (always_lift _).bind fun quote => ?_
  refine (always_onShares (ShareBook.mint_confined _ _ _)).bind fun time => ?_
  refine (always_onFees (FeeBook.charge_confined _ _)).bind fun _ => ?_
  exact (always_setCollateral _).bind fun _ => always_pure _

theorem carryOut_confined (holder : Address) (quote : ExitQuote) (now : ℕ) :
    Always (Confined [holder]) (carryOut holder quote now) := by
  unfold carryOut
  refine always_get.bind fun p => (always_lift _).bind fun reserve =>
    (always_lift _).bind fun collateral => ?_
  refine (always_onShares (ShareBook.burn_confined _ _ _)).bind fun _ => ?_
  refine (always_onFees (FeeBook.settle_confined _ _)).bind fun _ => ?_
  exact fun _ => ensures_modify.mpr ⟨fun _ _ => rfl, fun hs => { hs with }⟩

theorem exit_confined (holder : Address) (shares : ℕ) (backing : Backing) (now : ℕ) :
    Always (Confined [holder]) (exit holder shares backing now) := by
  unfold exit
  refine always_get.bind fun p => (always_lift _).bind fun quote => ?_
  exact (carryOut_confined holder quote now).bind fun _ => always_pure _

theorem applySelfClose_confined (holder : Address) (plan : SelfClosePlan) (now : ℕ) :
    Always (Confined [holder]) (applySelfClose holder plan now) := by
  unfold applySelfClose
  exact (carryOut_confined holder plan.quote now).bind fun _ => always_pure _

theorem withdrawFees_confined (holder : Address) (amount : ℕ) :
    Always (Confined [holder]) (withdrawFees holder amount) := by
  unfold withdrawFees
  refine always_get.bind fun p => (always_lift _).bind fun claimable =>
    (always_lift _).bind fun _ => (always_lift _).bind fun reserve => ?_
  exact (always_onFees (FeeBook.charge_confined _ _)).bind fun _ => always_setFeeReserve _

theorem payFeeDebt_confined (holder : Address) (amount : ℕ) :
    Always (Confined [holder]) (payFeeDebt holder amount) := by
  unfold payFeeDebt
  refine (always_lift _).bind fun _ => always_get.bind fun p =>
    (always_lift _).bind fun reserve => ?_
  exact (always_onFees (FeeBook.reduce_confined _ _)).bind fun _ => always_setFeeReserve _

theorem depositFees_confined (amount : ℕ) : Always (Confined holders) (depositFees amount) := by
  unfold depositFees
  exact always_get.bind fun p => (always_lift _).bind fun reserve => always_setFeeReserve _

theorem receiveCollateral_confined (amount : ℕ) :
    Always (Confined holders) (receiveCollateral amount) := by
  unfold receiveCollateral
  exact always_get.bind fun p => (always_lift _).bind fun collateral => always_setCollateral _

theorem payout_confined (holder : Address) (collateral shares now : ℕ) :
    Always (Confined [holder]) (payout holder collateral shares now) := by
  unfold payout
  refine always_get.bind fun p => (always_lift _).bind fun _ => (always_lift _).bind fun _ => ?_
  refine (always_onFees (FeeBook.seize_confined _ _ _ _)).bind fun _ => ?_
  refine (always_onShares (ShareBook.burn_confined _ _ _)).bind fun _ => ?_
  exact (always_lift _).bind fun left => always_setCollateral _

theorem updateSettings_confined (settings : Settings) :
    Always (Confined holders) (updateSettings settings) := by
  unfold updateSettings
  exact always_lift_bind fun _ hcheck _ => ensures_modify.mpr
    ⟨fun _ _ => rfl, fun hs => { hs with settings := Settings.check_eq_ok_iff.mp hcheck }⟩

theorem transfer_confined (sender receiver : Address) (amount now : ℕ) :
    Always (Confined [sender, receiver]) (transfer sender receiver amount now) := by
  unfold transfer
  refine always_get.bind fun p => (always_lift _).bind fun restriction => ?_
  exact always_onShares (ShareBook.transfer_confined _ _ _ _ _)

theorem cleanup_confined (holder : Address) (limit now : ℕ) :
    Always (Confined [holder]) (cleanup holder limit now) := by
  unfold cleanup
  refine Always.bind (fun p => ensures_modify.mpr ⟨fun other ho => ?_, fun hs => ?_⟩) fun _ =>
    always_get.bind fun _ => always_pure _
  · have hoff := (ShareBook.cleanup_confined p.shares holder now limit).off other ho
    simp only [holderRow_eq, hoff]
  · exact { hs with shares := (ShareBook.cleanup_confined _ _ _ _).sound hs.shares }

end

/-- The holders that a call names. -/
def Call.holders : Call → List Address
  | .enter holder .. => [holder]
  | .quoteExit .. => []
  | .exit holder .. => [holder]
  | .planSelfClose .. => []
  | .applySelfClose holder .. => [holder]
  | .withdrawFees holder _ => [holder]
  | .payFeeDebt holder _ => [holder]
  | .depositFees _ => []
  | .receiveCollateral _ => []
  | .payout holder .. => [holder]
  | .updateSettings _ => []
  | .transfer sender receiver .. => [sender, receiver]
  | .cleanup holder .. => [holder]

/-- Whether or not a call succeeds, it touches only the holders it names, and a
sound pool stays sound. -/
theorem perform_confined (call : Call) : Always (Confined call.holders) (perform call) := by
  cases call with
  | enter => exact (enter_confined _ _ _ _).bind fun _ => always_pure _
  | quoteExit => exact always_get.bind fun _ => (always_lift _).bind fun _ => always_pure _
  | exit => exact (exit_confined _ _ _ _).bind fun _ => always_pure _
  | planSelfClose => exact always_get.bind fun _ => (always_lift _).bind fun _ => always_pure _
  | applySelfClose => exact (applySelfClose_confined _ _ _).bind fun _ => always_pure _
  | withdrawFees => exact (withdrawFees_confined _ _).bind fun _ => always_pure _
  | payFeeDebt => exact (payFeeDebt_confined _ _).bind fun _ => always_pure _
  | depositFees => exact (depositFees_confined _).bind fun _ => always_pure _
  | receiveCollateral => exact (receiveCollateral_confined _).bind fun _ => always_pure _
  | payout => exact (payout_confined _ _ _ _).bind fun _ => always_pure _
  | updateSettings => exact (updateSettings_confined _).bind fun _ => always_pure _
  | transfer => exact (transfer_confined _ _ _ _).bind fun _ => always_pure _
  | cleanup => exact (cleanup_confined _ _ _).bind fun _ => always_pure _

end Pool

end PooledCollateral
