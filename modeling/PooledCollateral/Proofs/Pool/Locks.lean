/-
PooledCollateral.Proofs.Pool.Locks — shares stay until the time that their
receipt announces.

A `History` is a pool with the receipts that its entries have given out and the
holders that have suffered a payout. Every operation, also one that fails
half-way, leaves all accounts covered, and lets go of shares under a running
lock only in a payout (`operate_guarded`). So as long as time does not run
backwards, no locked amount exceeds its balance, and a holder without a payout
still has all shares whose receipts announce a later time
(`locked_shares_stay`).
-/
import PooledCollateral.Proofs.LockedShares
import PooledCollateral.Proofs.Pool.Run

namespace PooledCollateral.Pool

open PooledCollateral.Action Function ShareBook

variable {p q fresh : Pool} {holder : Address} {now t shares : ℕ} {settings : Settings}

/-! ## Operations that leave the shares alone -/

/-- The share book is as before. -/
def SameShares (p q : Pool) : Prop := q.shares = p.shares

instance : IsPreorder Pool SameShares where
  refl _ := rfl
  trans _ _ _ h h' := h'.trans h

theorem always_onFees_sameShares {α : Type} (act : Action FeeBook α) :
    Always SameShares (onFees act) := fun _ =>
  ensures_onPart.mpr (ensures_of_forall (fun _ _ => rfl) fun _ _ => rfl)

theorem withdrawFees_sameShares (holder : Address) (amount : ℕ) :
    Always SameShares (withdrawFees holder amount) := by
  unfold withdrawFees
  refine always_get.bind fun _ => (always_lift _).bind fun _ => (always_lift _).bind fun _ =>
    (always_lift _).bind fun _ => ?_
  exact (always_onFees_sameShares _).bind fun _ _ => ensures_modify.mpr rfl

theorem payFeeDebt_sameShares (holder : Address) (amount : ℕ) :
    Always SameShares (payFeeDebt holder amount) := by
  unfold payFeeDebt
  refine (always_lift _).bind fun _ => always_get.bind fun _ => (always_lift _).bind fun _ => ?_
  exact (always_onFees_sameShares _).bind fun _ _ => ensures_modify.mpr rfl

theorem depositFees_sameShares (amount : ℕ) : Always SameShares (depositFees amount) :=
  always_get.bind fun _ => (always_lift _).bind fun _ _ => ensures_modify.mpr rfl

theorem receiveCollateral_sameShares (amount : ℕ) : Always SameShares (receiveCollateral amount) :=
  always_get.bind fun _ => (always_lift _).bind fun _ _ => ensures_modify.mpr rfl

theorem updateSettings_sameShares (settings : Settings) :
    Always SameShares (updateSettings settings) :=
  (always_lift _).bind fun _ _ => ensures_modify.mpr rfl

/-! ## Operations that move shares -/

/-- An entry adds its shares to what its holder holds, until the time that its
receipt announces. -/
theorem enter_guarded (h : p.shares.Covered now) (holder : Address) (collateral : ℕ)
    (price : Option Price) :
    (enter holder collateral price now).Ensures p
      (fun receipt q => Guarded now [] p.shares q.shares ∧
        ∀ t, (q.shares.accountOf holder).held t = (p.shares.accountOf holder).held t +
          if t < receipt.unlockTime then receipt.shares else 0)
      (fun _ q => Guarded now [] p.shares q.shares) := by
  unfold enter onShares
  simp only [ensures_bind, ensures_get, ensures_onPart]
  refine ensures_lift.mpr ⟨fun quote _ => ?_, fun _ _ => guarded_of_same h rfl⟩
  refine (mint_ensures p.shares holder quote.shares (p.unlockTime now)).mono ?_ ?_
  · intro time minted hpost
    obtain ⟨rfl, -, -, haccounts⟩ := hpost
    have hguarded : Guarded now [] p.shares minted := guarded_of_minted h haccounts
    refine (always_onFees_sameShares (FeeBook.charge holder quote.feeDebt) _).mono ?_ ?_
    · intro _ charged hsame
      refine ensures_modify.mpr ⟨hsame.symm ▸ hguarded, fun t => ?_⟩
      show (charged.shares.accountOf holder).held t = _
      rw [hsame, haccounts, update_self]
      exact Account.held_minted _ _ _ t
    · intro _ charged hsame
      exact hsame.symm ▸ hguarded
  · intro _ _ hpost
    exact guarded_of_same h hpost.1

/-- A burn of free shares lets go of nothing, also where the settlement of the
debt fails after it. -/
theorem carryOut_guarded (h : p.shares.Covered now) (hs : p.Sound) {quote : ExitQuote}
    (hfree : quote.shares ≤ p.balanceOf holder - (p.shares.accountOf holder).held now) :
    (carryOut holder quote now).Ensures p (fun _ q => Guarded now [] p.shares q.shares)
      (fun _ q => Guarded now [] p.shares q.shares) := by
  have hsame : Guarded now [] p.shares p.shares := guarded_of_same h rfl
  unfold carryOut onShares
  simp only [ensures_bind, ensures_get, ensures_onPart]
  refine ensures_lift.mpr ⟨fun _ _ => ensures_lift.mpr ⟨fun _ _ => ?_, fun _ _ => hsame⟩,
    fun _ _ => hsame⟩
  refine (burn_ensures p.shares holder quote.shares now).mono ?_ ?_
  · intro _ burned hpost
    obtain ⟨-, -, a, ha, haccounts⟩ := hpost
    have hguarded : Guarded now [] p.shares burned := by
      rw [balanceOf, balanceOf_eq] at hfree
      exact guarded_of_update h haccounts (Account.burned_covered (h holder) ha) fun _ =>
        Account.burned_holds (h holder) hfree ha
    refine (always_onFees_sameShares _ _).mono ?_ ?_
    · intro _ settled hsettled
      exact ensures_modify.mpr (hsettled.symm ▸ hguarded)
    · intro _ settled hsettled
      exact hsettled.symm ▸ hguarded
  · intro _ burned hpost
    rw [hpost.2 hs.shares]
    exact hsame

/-- Only free shares get a quote for their burn. -/
theorem quoteExit_free (h : p.shares.Covered now) {quote : ExitQuote}
    (hquote : p.quoteExit holder shares now = .ok quote) :
    quote.shares ≤ p.balanceOf holder - (p.shares.accountOf holder).held now := by
  have hshares := (quoteExit_ok hquote).shares_eq
  simp only [quoteExit, Restriction.authorizeExit, Restriction.exitable, Checked.bind_eq_ok_iff,
    require_eq_ok_iff] at hquote
  obtain ⟨_, -, locked, hlocked, _, ⟨_, -, hfree⟩, -⟩ := hquote
  rw [hshares, ← h.lockedBalance hlocked]
  exact require_eq_ok_iff.mp hfree

theorem exit_guarded (h : p.shares.Covered now) (hs : p.Sound) (holder : Address) (shares : ℕ)
    (backing : Backing) :
    (exit holder shares backing now).Ensures p (fun _ q => Guarded now [] p.shares q.shares)
      (fun _ q => Guarded now [] p.shares q.shares) := by
  unfold exit
  simp only [ensures_bind, ensures_get, ensures_pure]
  refine ensures_lift.mpr ⟨fun quote hquote => ?_, fun _ _ => guarded_of_same h rfl⟩
  exact carryOut_guarded h hs (quoteExit_free h (planExit_ok hquote))

theorem selfClose_guarded (h : p.shares.Covered now) (hs : p.Sound) (holder : Address)
    (shares : ℕ) (backing : Backing) :
    (selfClose holder shares backing now).Ensures p (fun _ q => Guarded now [] p.shares q.shares)
      (fun _ q => Guarded now [] p.shares q.shares) := by
  unfold selfClose applySelfClose
  simp only [ensures_bind, ensures_get, ensures_pure]
  refine ensures_lift.mpr ⟨fun plan hplan => ?_, fun _ _ => guarded_of_same h rfl⟩
  exact carryOut_guarded h hs (quoteExit_free h (planSelfClose_ok hplan).1)

theorem transferShares_guarded (h : p.shares.Covered now) (sender receiver : Address) (amount : ℕ) :
    (transfer sender receiver amount now).Ensures p (fun _ q => Guarded now [] p.shares q.shares)
      (fun _ q => Guarded now [] p.shares q.shares) := by
  unfold transfer onShares
  simp only [ensures_bind, ensures_get, ensures_onPart]
  refine ensures_lift.mpr ⟨fun restriction hrestriction => ?_, fun _ _ => guarded_of_same h rfl⟩
  obtain ⟨locked, hlocked, hrestriction⟩ := Checked.bind_eq_ok_iff.mp hrestriction
  obtain ⟨_, -, hreturn⟩ := Checked.bind_eq_ok_iff.mp hrestriction
  cases hreturn
  exact transfer_guarded h (h.lockedBalance hlocked)

/-- A payout burns shares in spite of their locks, but only those of the holder
that it names, and only if it succeeds. -/
theorem payout_guarded (h : p.shares.Covered now) (hs : p.Sound) (holder : Address)
    (collateral shares : ℕ) :
    (payout holder collateral shares now).Ensures p
      (fun _ q => Guarded now [holder] p.shares q.shares)
      (fun _ q => Guarded now [] p.shares q.shares) := by
  have hsame : Guarded now [] p.shares p.shares := guarded_of_same h rfl
  unfold payout onShares
  simp only [ensures_bind, ensures_get, ensures_onPart]
  refine ensures_lift.mpr ⟨fun _ _ => ensures_lift.mpr ⟨fun _ hcollateral => ?_, fun _ _ => hsame⟩,
    fun _ _ => hsame⟩
  refine (always_onFees_sameShares _ p).mono ?_ fun _ q hq => hq.symm ▸ hsame
  intro _ seized hseized
  rw [show seized.shares = p.shares from hseized]
  refine (burn_ensures p.shares holder shares now).mono ?_ ?_
  · intro _ burned hpost
    obtain ⟨-, -, a, ha, haccounts⟩ := hpost
    have hguarded : Guarded now [holder] p.shares burned :=
      guarded_of_update h haccounts (Account.burned_covered (h holder) ha) (by simp)
    -- the collateral is known to be there
    refine ensures_lift.mpr ⟨fun _ _ => ensures_modify.mpr hguarded, fun e he => ?_⟩
    rw [require_eq_ok_iff] at hcollateral
    simp [Amount.take, hcollateral] at he
  · intro _ burned hpost
    rw [hpost.2 hs.shares]
    exact hsame

/-! ## Times -/

theorem eq_getD_of_time (time? : Option ℕ) (clock : ℕ) : ∀ time ∈ time?, time = time?.getD clock :=
  fun time htime => by rw [Option.mem_def.mp htime, Option.getD_some]

/-- The clock does not run backwards if nothing takes place behind it. -/
theorem clock_le_getD {time? : Option ℕ} {clock : ℕ} (h : ∀ time ∈ time?, clock ≤ time) :
    clock ≤ time?.getD clock := by
  cases time? with
  | none => exact Nat.le_refl _
  | some time => exact h time rfl

/-- Where times do not run backwards, what comes first is not behind the clock, and
what comes later not behind the first. -/
theorem times_cons {α : Type} {time? : α → Option ℕ} {clock : ℕ} {first : α} {rest : List α}
    {last : List ℕ} (h : (clock :: ((first :: rest).filterMap time? ++ last)).Pairwise (· ≤ ·)) :
    (∀ time ∈ time? first, clock ≤ time) ∧
      ((time? first).getD clock :: (rest.filterMap time? ++ last)).Pairwise (· ≤ ·) := by
  cases htime : time? first with
  | none =>
    rw [List.filterMap_cons_none htime] at h
    exact ⟨by simp, h⟩
  | some time =>
    rw [List.filterMap_cons_some htime, List.cons_append] at h
    obtain ⟨hclock, hlater⟩ := List.pairwise_cons.mp h
    exact ⟨by simpa using hclock time List.mem_cons_self, hlater⟩

/-! ## Every operation -/

/-- The time at which an operation takes place, if that matters to it. -/
def Operation.time? : Operation → Option ℕ
  | .enter _ _ _ now => some now
  | .exit _ _ _ now => some now
  | .selfClose _ _ _ now => some now
  | .withdrawFees _ _ => none
  | .payFeeDebt _ _ => none
  | .depositFees _ => none
  | .receiveCollateral _ => none
  | .payout _ _ _ now => some now
  | .updateSettings _ => none
  | .transfer _ _ _ now => some now
  | .cleanup _ _ now => some now

/-- The holder of shares that an operation seizes. -/
def Operation.seizedFrom? : Operation → Option Address
  | .payout holder .. => some holder
  | _ => none

/-- Every operation leaves all accounts covered, and only a payout that succeeds
lets go of shares under a running lock. -/
theorem operate_guarded {op : Operation} (h : p.shares.Covered now) (hs : p.Sound)
    (htime : ∀ time ∈ op.time?, time = now) :
    (operate op).Ensures p (fun _ q => Guarded now op.seizedFrom?.toList p.shares q.shares)
      (fun _ q => Guarded now [] p.shares q.shares) := by
  have hunmoved : ∀ {act : Action Pool Unit}, Always SameShares act →
      act.Ensures p (fun _ q => Guarded now [] p.shares q.shares)
        (fun _ q => Guarded now [] p.shares q.shares) := fun hact =>
    (hact p).mono (fun _ q hq => hq.symm ▸ guarded_of_same h rfl) fun _ q hq =>
      hq.symm ▸ guarded_of_same h rfl
  cases op with
  | enter holder collateral price time =>
    obtain rfl := htime time rfl
    simp only [operate, ensures_bind, ensures_pure]
    exact (enter_guarded h holder collateral price).mono (fun _ _ hq => hq.1) fun _ _ hq => hq
  | exit holder shares backing time =>
    obtain rfl := htime time rfl
    simp only [operate, ensures_bind, ensures_pure]
    exact exit_guarded h hs holder shares backing
  | selfClose holder shares backing time =>
    obtain rfl := htime time rfl
    simp only [operate, ensures_bind, ensures_pure]
    exact selfClose_guarded h hs holder shares backing
  | withdrawFees => exact hunmoved (withdrawFees_sameShares _ _)
  | payFeeDebt => exact hunmoved (payFeeDebt_sameShares _ _)
  | depositFees => exact hunmoved (depositFees_sameShares _)
  | receiveCollateral => exact hunmoved (receiveCollateral_sameShares _)
  | payout holder collateral shares time =>
    obtain rfl := htime time rfl
    exact payout_guarded h hs holder collateral shares
  | updateSettings => exact hunmoved (updateSettings_sameShares _)
  | transfer sender receiver amount time =>
    obtain rfl := htime time rfl
    exact transferShares_guarded h sender receiver amount
  | cleanup holder limit time =>
    obtain rfl := htime time rfl
    exact cleanup_guarded h holder limit

/-! ## Histories -/

/-- The receipt of an operation and its holder, if it is an entry and succeeds. -/
def receipt? (p : Pool) : Operation → Option (Address × EntryReceipt)
  | .enter holder collateral price now =>
    match (enter holder collateral price now).run p with
    | .ok receipt _ => some (holder, receipt)
    | .error _ _ => none
  | _ => none

/-- Only an entry that succeeds gives out a receipt. -/
theorem receipt?_eq_some {op : Operation} {receipt : EntryReceipt}
    (h : receipt? p op = some (holder, receipt)) :
    ∃ collateral price now, op = .enter holder collateral price now ∧
      (enter holder collateral price now).run p = .ok receipt ((operate op).stateAfter p) := by
  cases op with
  | enter other collateral price now =>
    cases hrun : (enter other collateral price now).run p with
    | ok given q =>
      simp only [receipt?, hrun] at h
      cases h
      have hop : (operate (.enter holder collateral price now)).run p = .ok () q :=
        run_bind_eq_ok_iff.mpr ⟨receipt, q, hrun, rfl⟩
      refine ⟨collateral, price, now, rfl, ?_⟩
      simp only [stateAfter, hop, hrun]
    | error e q =>
      simp only [receipt?, hrun] at h
      cases h
  | _ => cases h

/-- The shares of a holder's receipts that announce a time later than `t`. -/
def promised (receipts : List (Address × EntryReceipt)) (holder : Address) (t : ℕ) : ℕ :=
  ((receipts.filter fun r => r.1 = holder ∧ t < r.2.unlockTime).map (·.2.shares)).sum

@[simp] theorem promised_nil : promised [] holder t = 0 := rfl

@[simp] theorem promised_append (receipts more : List (Address × EntryReceipt)) :
    promised (receipts ++ more) holder t = promised receipts holder t + promised more holder t := by
  simp [promised]

theorem promised_singleton (other : Address) (receipt : EntryReceipt) :
    promised [(other, receipt)] holder t =
      if other = holder ∧ t < receipt.unlockTime then receipt.shares else 0 := by
  by_cases h : other = holder ∧ t < receipt.unlockTime <;> simp [promised, h]

/-- A pool, and what has been promised and broken on the way to it. -/
structure History where
  pool : Pool
  /-- The receipts of all entries, with their holders. -/
  receipts : List (Address × EntryReceipt)
  /-- The holders who have suffered a payout. -/
  seized : List Address

namespace History

/-- The history after one more operation, successful or not. -/
def next (h : History) (op : Operation) : History where
  pool := (operate op).stateAfter h.pool
  receipts := h.receipts ++ (receipt? h.pool op).toList
  seized := h.seized ++ if (operate op).failure? h.pool = none then op.seizedFrom?.toList else []

/-- The history of a run, its failed operations included. -/
def ofRun (p : Pool) (ops : List Operation) : History :=
  ops.foldl next { pool := p, receipts := [], seized := [] }

/-- All accounts are covered, and who has suffered no payout holds what its
receipts promise. -/
structure Kept (clock : ℕ) (h : History) : Prop where
  sound : h.pool.Sound
  covered : h.pool.shares.Covered clock
  promised_le : ∀ holder, holder ∉ h.seized → ∀ t, clock ≤ t →
    promised h.receipts holder t ≤ (h.pool.shares.accountOf holder).held t

variable {h : History} {clock : ℕ} {op : Operation} {ops : List Operation}

theorem Kept.mono (hk : h.Kept clock) (ht : clock ≤ t) : h.Kept t :=
  ⟨hk.sound, hk.covered.mono ht, fun holder hholder u hu =>
    hk.promised_le holder hholder u (ht.trans hu)⟩

/-- What the next operation leaves is guarded, but for a payout that succeeds. -/
theorem Kept.guarded (hk : h.Kept now) (htime : ∀ time ∈ op.time?, time = now) :
    Guarded now (if (operate op).failure? h.pool = none then op.seizedFrom?.toList else [])
      h.pool.shares (h.next op).pool.shares := by
  have hguarded := operate_guarded hk.covered hk.sound htime
  cases hfailure : (operate op).failure? h.pool with
  | none =>
    obtain ⟨_, hrun⟩ := run_of_success hfailure
    exact hguarded.of_ok hrun
  | some e => exact hguarded.of_error (run_of_failure hfailure)

/-- What a receipt adds to what is promised, its entry adds to what is held. -/
theorem Kept.receipt_held (hk : h.Kept now) (htime : ∀ time ∈ op.time?, time = now)
    (hholder : holder ∉ (h.next op).seized) (ht : now ≤ t) :
    (h.pool.shares.accountOf holder).held t + promised (receipt? h.pool op).toList holder t
      ≤ ((h.next op).pool.shares.accountOf holder).held t := by
  have hholds := (hk.guarded htime).holds holder
    (fun hmem => hholder (List.mem_append_right _ hmem)) t ht
  cases hreceipt : receipt? h.pool op with
  | none => simpa using hholds
  | some given =>
    obtain ⟨other, receipt⟩ := given
    obtain ⟨collateral, price, time, rfl, hrun⟩ := receipt?_eq_some hreceipt
    obtain rfl := htime time rfl
    have hminted := ((enter_guarded hk.covered other collateral price).of_ok hrun).2 t
    rw [Option.toList_some, promised_singleton]
    by_cases hother : other = holder
    · subst hother
      simp only [true_and]
      exact hminted.ge
    · simpa [hother] using hholds

/-- An operation that does not go back in time keeps the promises. -/
theorem Kept.next (hk : h.Kept clock) (hclock : ∀ time ∈ op.time?, clock ≤ time) :
    (h.next op).Kept (op.time?.getD clock) := by
  have htime := eq_getD_of_time op.time? clock
  have hnow := hk.mono (clock_le_getD hclock)
  refine ⟨?_, (hnow.guarded htime).covered, fun holder hholder t ht => ?_⟩
  · exact ((operate_confined op h.pool).stateAfter).sound hk.sound
  · have hkept := hnow.promised_le holder (fun hmem => hholder (List.mem_append_left _ hmem)) t ht
    rw [show (h.next op).receipts = h.receipts ++ (receipt? h.pool op).toList from rfl,
      promised_append]
    exact (Nat.add_le_add_right hkept _).trans (hnow.receipt_held htime hholder ht)

/-- A run in which time does not run backwards keeps the promises. -/
theorem Kept.foldl (hk : h.Kept clock)
    (htimes : (clock :: (ops.filterMap Operation.time? ++ [now])).Pairwise (· ≤ ·)) :
    (ops.foldl History.next h).Kept now := by
  induction ops generalizing h clock with
  | nil => exact hk.mono (by simpa using htimes)
  | cons op ops ih =>
    obtain ⟨hclock, hlater⟩ := times_cons htimes
    rw [List.foldl_cons]
    exact ih (hk.next hclock) hlater

end History

/-- As long as time does not run backwards, and whichever operations fail, the
locked amount of every account is within its balance, and whoever has suffered
no payout still has all shares whose receipts announce a time later than `now`.
A receipt stands against every exit, self-close exit and transfer: the run may
end with any of them. -/
theorem locked_shares_stay (hfresh : create settings = .ok fresh) (ops : List Operation)
    (htimes : (ops.filterMap Operation.time? ++ [now]).Pairwise (· ≤ ·)) (holder : Address) :
    (∃ locked,
        ((History.ofRun fresh ops).pool.shares.locksOf holder).lockedAmount now = .ok locked ∧
        locked ≤ (History.ofRun fresh ops).pool.balanceOf holder) ∧
      (holder ∉ (History.ofRun fresh ops).seized →
        promised (History.ofRun fresh ops).receipts holder now
          ≤ (History.ofRun fresh ops).pool.balanceOf holder) := by
  have hshares : fresh.shares = ShareBook.empty := by
    obtain ⟨_, -, hreturn⟩ := Checked.bind_eq_ok_iff.mp hfresh
    cases hreturn
    rfl
  have hstart : ({ pool := fresh, receipts := [], seized := [] } : History).Kept 0 :=
    ⟨sound_create hfresh, hshares ▸ covered_of_fresh 0, fun _ _ _ _ => Nat.zero_le _⟩
  have hkept : (History.ofRun fresh ops).Kept now :=
    hstart.foldl (List.pairwise_cons.mpr ⟨fun _ _ => Nat.zero_le _, htimes⟩)
  refine ⟨hkept.covered.lockedAmount hkept.sound.shares holder, fun hholder => ?_⟩
  rw [balanceOf, balanceOf_eq]
  exact (hkept.promised_le holder hholder now (Nat.le_refl _)).trans (hkept.covered holder).held_le

/-! ## Shorter locks -/

/-- Settings under which new shares are locked for a hundred seconds. -/
def lockingSettings : Settings := { looseSettings with lockDuration := 100 }

/-- A fresh pool under them. -/
def lockingPool : Pool := { freshPool with settings := lockingSettings }

/-- Two entries of one holder, with the locks shortened in between; an exit and a
transfer that are refused, and an exit of the other holder. -/
def lockedEntries : List Operation :=
  [.enter rich 1000 none 0, .updateSettings looseSettings, .enter poor 300 none 10,
    .enter rich 200 none 20, .exit rich 500 ⟨0, ⟨1, 1⟩⟩ 50, .transfer rich poor 1 60,
    .exit poor 300 ⟨0, ⟨1, 1⟩⟩ 70]

/-- The second entry would be free at once, but its lock does not end before the
first one; until then all 1200 shares stay. -/
theorem lockedEntries_stay :
    promised (History.ofRun lockingPool lockedEntries).receipts rich 99 = 1200 ∧
      (operate (.exit rich 500 ⟨0, ⟨1, 1⟩⟩ 50)).failure?
          (History.ofRun lockingPool (lockedEntries.take 4)).pool
        = some (.rejected (.insufficientUnlocked 500 0)) ∧
      (History.ofRun lockingPool lockedEntries).pool.balanceOf poor = 0 ∧
      (∃ locked,
          ((History.ofRun lockingPool lockedEntries).pool.shares.locksOf rich).lockedAmount 99
            = .ok locked ∧
          locked ≤ (History.ofRun lockingPool lockedEntries).pool.balanceOf rich) ∧
        promised (History.ofRun lockingPool lockedEntries).receipts rich 99
          ≤ (History.ofRun lockingPool lockedEntries).pool.balanceOf rich := by
  refine ⟨by decide +kernel, by decide +kernel, by decide +kernel, ?_⟩
  have hfresh : create lockingSettings = .ok lockingPool := rfl
  have htimes : (lockedEntries.filterMap Operation.time? ++ [99]).Pairwise (· ≤ ·) := by decide
  obtain ⟨hlocked, hpromised⟩ := locked_shares_stay hfresh lockedEntries htimes rich
  exact ⟨hlocked, hpromised (by decide +kernel)⟩

end PooledCollateral.Pool
