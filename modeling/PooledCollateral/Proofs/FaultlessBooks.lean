/-
PooledCollateral.Proofs.FaultlessBooks — neither the share book nor the fee book
faults.

Each place at which a book could fault has its own reason not to. The locks of a
covered account hold no more than its balance, so their sum is an amount; in a
sound share book no balance exceeds the supply, so a burn leaves a supply; in a
sound fee book the debts and the credits are amounts, so their slices can be
formed; and what is taken off a holder has been compared with what the holder has.
-/
import PooledCollateral.Proofs.Faultless
import PooledCollateral.Proofs.FeeBook
import PooledCollateral.Proofs.LockedShares

namespace PooledCollateral

open PooledCollateral.Action

variable {now : ℕ}

/-! ## Accounts -/

namespace Account

variable {a b : Account} {shares : ℕ}

theorem ext_locks (hbalance : a.balance = b.balance) (hlocks : a.locks.locks = b.locks.locks) :
    a = b := by
  obtain ⟨_, ⟨_⟩⟩ := a
  obtain ⟨_, ⟨_⟩⟩ := b
  cases hbalance
  cases hlocks
  rfl

/-- What covered locks hold is an amount if the balance is one. -/
theorem Covered.lockedAmount (h : a.Covered now) (hbalance : a.balance ≤ Amount.max) :
    a.locks.lockedAmount now = .ok (a.held now) :=
  (LockQueue.lockedAmount_eq_ok_iff h.inOrder).mpr ⟨rfl, h.held_le.trans hbalance⟩

theorem faultless_burn (h : a.Covered now) (hbalance : a.balance ≤ Amount.max)
    (hshares : shares ≤ a.balance) : Checked.Faultless (a.burn shares now) := by
  refine (Checked.faultless_of_ok (h.lockedAmount hbalance)).bind fun locked _ =>
    (Amount.faultless_take hshares).bind fun left _ => ?_
  split
  · exact (LockQueue.faultless_consumeLocked _ _ _).bind fun _ _ =>
      (LockQueue.faultless_consumeExpired _ _ _).bind fun _ _ => Checked.faultless_pure _
  · exact (Checked.faultless_pure _).bind fun _ _ =>
      (LockQueue.faultless_consumeExpired _ _ _).bind fun _ _ => Checked.faultless_pure _

theorem faultless_send (hshares : shares ≤ a.balance) : Checked.Faultless (a.send shares now) :=
  (Amount.faultless_take hshares).bind fun _ _ =>
    (LockQueue.faultless_consumeExpired _ _ _).bind fun _ _ => Checked.faultless_pure _

end Account

/-! ## The share book -/

namespace ShareBook

/-- The book is sound and its accounts are covered. -/
structure Safe (now : ℕ) (book : ShareBook) : Prop where
  sound : book.Sound
  covered : book.Covered now

variable {book : ShareBook} {holder : Address}

theorem Safe.balance_le_max (h : book.Safe now) (holder : Address) :
    (book.accountOf holder).balance ≤ Amount.max :=
  (h.sound.balance_le holder).trans h.sound.supply_le

theorem Safe.faultless_lockedBalance (h : book.Safe now) (holder : Address) :
    Checked.Faultless (book.lockedBalance holder now) := by
  have hcovered := h.covered holder
  have hbalance := h.balance_le_max holder
  unfold lockedBalance
  unfold accountOf at hcovered hbalance
  cases haccount : book.accounts.get? holder with
  | none => exact Checked.faultless_of_ok rfl
  | some a =>
    rw [haccount] at hcovered hbalance
    exact (Checked.faultless_of_ok (hcovered.lockedAmount hbalance)).bind fun _ _ =>
      Checked.faultless_pure _

theorem faultless_mint (holder : Address) (shares unlockTime : ℕ) :
    Faultless (Safe now) (mint holder shares unlockTime) := by
  refine faultless_of (fun book _ => ?_) fun book h => ?_
  · unfold mint
    simp only [ensures_bind, ensures_get, ensures_set, ensures_lift, ensures_pure]
    exact ⟨fun _ _ => ⟨fun _ _ => trivial, fun _ he => (Amount.faultless_add _ _).error_ne he⟩,
      fun _ he => (Amount.faultless_add _ _).error_ne he⟩
  · have hsound := mint_confined holder shares unlockTime book
    refine hsound.and (mint_ensures book holder shares unlockTime) |>.mono ?_ ?_
    · rintro _ b ⟨hconfined, -, -, -, haccounts⟩
      exact ⟨hconfined.sound h.sound, (guarded_of_minted h.covered haccounts).covered⟩
    · rintro _ b ⟨hconfined, haccounts, -⟩
      exact ⟨hconfined.sound h.sound, fun other => haccounts ▸ h.covered other⟩

theorem faultless_burn (holder : Address) (shares : ℕ) :
    Faultless (Safe now) (burn holder shares now) := by
  refine faultless_of (fun book h => ?_) fun book h => ?_
  · unfold burn
    simp only [ensures_bind, ensures_get, ensures_set, ensures_lift, ensures_pure, ensures_ite,
      ensures_modify, require_eq_ok_iff]
    refine ⟨fun _ hshares => ⟨fun _ => trivial, fun _ => ⟨fun a _ => ⟨fun _ _ => trivial, ?_⟩, ?_⟩⟩,
      fun _ he => Checked.faultless_require.error_ne he⟩
    · -- what a balance has room for the supply has
      rw [balanceOf_eq] at hshares
      exact fun _ he =>
        (Amount.faultless_take (hshares.trans (h.sound.balance_le holder))).error_ne he
    · rw [balanceOf_eq] at hshares
      exact fun _ he =>
        (Account.faultless_burn (h.covered holder) (h.balance_le_max holder) hshares).error_ne he
  · have hsound := burn_confined holder shares now book
    refine hsound.and (burn_ensures book holder shares now) |>.mono ?_ ?_
    · rintro _ b ⟨hconfined, -, -, a, ha, haccounts⟩
      have hguarded : Guarded now [holder] book b :=
        guarded_of_update h.covered haccounts (Account.burned_covered (h.covered holder) ha)
          (by simp)
      exact ⟨hconfined.sound h.sound, hguarded.covered⟩
    · rintro _ b ⟨-, -, hkept⟩
      exact hkept h.sound ▸ h

/-- The restriction on the sender is what its own locks demand, so none of the
shares that they hold is sent. -/
theorem faultless_transfer {sender receiver : Address} {amount : ℕ} {restriction : Restriction}
    (h : book.Safe now) (hlocked : restriction.locked = (book.accountOf sender).held now) :
    (transfer sender receiver amount restriction now).Ensures book (fun _ b => b.Safe now)
      (fun failure b => failure ≠ .fault ∧ b.Safe now) := by
  have hfault : (transfer sender receiver amount restriction now).Ensures book
      (fun _ _ => True) (fun failure _ => failure ≠ .fault) := by
    unfold transfer
    simp only [ensures_bind, ensures_get, ensures_set, ensures_lift, ensures_pure, ensures_ite,
      Restriction.authorizeTransfer, require_eq_ok_iff]
    refine ⟨fun _ hallowed =>
        ⟨fun _ => trivial, fun _ => ⟨fun _ _ => ⟨fun _ _ => trivial, ?_⟩, ?_⟩⟩,
      fun _ he => Checked.faultless_require.error_ne he⟩
    · have hamount : amount ≤ (book.accountOf sender).balance := by
        rw [← balanceOf_eq]
        exact (hallowed.trans (Nat.min_le_left _ _)).trans (Nat.sub_le _ _)
      exact fun _ he => (Account.faultless_send hamount).error_ne he
    · exact fun _ he => (Amount.faultless_add _ _).error_ne he
  have hsound := transfer_confined sender receiver amount restriction now book
  refine (hfault.and (hsound.and (transfer_guarded h.covered hlocked))).mono ?_ ?_
  · rintro _ b ⟨-, hconfined, hguarded⟩
    exact ⟨hconfined.sound h.sound, hguarded.covered⟩
  · rintro _ b ⟨hcause, hconfined, hguarded⟩
    exact ⟨hcause, hconfined.sound h.sound, hguarded.covered⟩

theorem Safe.cleanup (h : book.Safe now) (holder : Address) (limit : ℕ) :
    (book.cleanup holder now limit).Safe now :=
  ⟨(cleanup_confined book holder now limit).sound h.sound,
    (cleanup_guarded h.covered holder limit).covered⟩

end ShareBook

/-! ## The fee book -/

namespace FeeBook

variable {book : FeeBook} {holder : Address} {reserve shares balance supply : ℕ}

theorem Sound.debt_le_max (h : book.Sound) (holder : Address) :
    book.debts.get holder ≤ Amount.max :=
  (Amounts.get_le_total _ _).trans (h.debt_eq.ge.trans h.debt_le)

theorem Sound.credit_le_max (h : book.Sound) (holder : Address) :
    book.credits.get holder ≤ Amount.max :=
  (Amounts.get_le_total _ _).trans (h.credit_eq.ge.trans h.credit_le)

/-! ### Queries -/

theorem faultless_virtualReserve (book : FeeBook) (reserve : ℕ) :
    Checked.Faultless (book.virtualReserve reserve) :=
  (Amount.faultless_add _ _).bind fun _ _ => Amount.faultless_sub _ _

/-- The virtual reserve is formed from a sum that is an amount. -/
theorem virtualReserve_le_max {virtual : ℕ} (h : book.virtualReserve reserve = .ok virtual) :
    virtual ≤ Amount.max := by
  obtain ⟨sum, hsum, hsub⟩ := Checked.bind_eq_ok_iff.mp h
  obtain ⟨rfl, hle⟩ := Amount.add_eq_ok_iff.mp hsum
  obtain ⟨rfl, -⟩ := Amount.sub_eq_ok_iff.mp hsub
  exact (Nat.sub_le _ _).trans hle

theorem faultless_slice (hshares : shares ≤ Amount.max) :
    Checked.Faultless (book.slice reserve shares supply) := by
  unfold slice
  split
  · exact Checked.faultless_pure 0
  · exact (faultless_virtualReserve _ _).bind fun _ hvirtual =>
      Amount.faultless_mulDiv (virtualReserve_le_max hvirtual) hshares _

theorem faultless_claimable (hbalance : balance ≤ Amount.max) :
    Checked.Faultless (book.claimable holder reserve balance supply) :=
  (faultless_slice hbalance).bind fun _ _ => (Amount.faultless_add _ _).bind fun _ _ =>
    Checked.faultless_pure _

theorem faultless_indebtedShares (h : book.Sound) (hsupply : supply ≤ Amount.max) :
    Checked.Faultless (book.indebtedShares holder reserve balance supply) := by
  refine (faultless_virtualReserve _ _).bind fun virtual _ => ?_
  split
  · exact Checked.faultless_pure 0
  · have hdebt : book.netDebt holder ≤ Amount.max := (Nat.sub_le _ _).trans (h.debt_le_max holder)
    exact (Amount.faultless_mulDivUp hdebt hsupply _).bind fun _ _ => Checked.faultless_pure _

theorem faultless_entryDebt (hshares : shares ≤ Amount.max) :
    Checked.Faultless (book.entryDebt reserve shares supply) := by
  unfold entryDebt
  split
  · exact Checked.faultless_pure _
  · exact (faultless_virtualReserve _ _).bind fun _ hvirtual =>
      Amount.faultless_mulDivUp (virtualReserve_le_max hvirtual) hshares _

theorem faultless_settlement (h : book.Sound) (hshares : shares ≤ Amount.max) :
    Checked.Faultless (book.settlement holder shares balance) := by
  unfold settlement
  split
  · exact Checked.faultless_pure _
  · exact (Amount.faultless_mulDiv (h.debt_le_max holder) hshares _).bind fun _ _ =>
      (Amount.faultless_mulDiv (h.credit_le_max holder) hshares _).bind fun _ _ =>
        Checked.faultless_pure _

/-! ### Changes -/

theorem faultless_charge (holder : Address) (amount : ℕ) :
    Faultless Sound (charge holder amount) := by
  refine faultless_of (fun book _ => ?_) fun book h => ?_
  · unfold charge
    simp only [ensures_bind, ensures_get, ensures_set, ensures_lift, ensures_pure, ensures_ite]
    exact ⟨fun _ => trivial, fun _ =>
      ⟨fun _ _ => ⟨fun _ _ => trivial, fun _ he => (Amount.faultless_add _ _).error_ne he⟩,
        fun _ he => (Amount.faultless_add _ _).error_ne he⟩⟩
  · exact (charge_confined holder amount book).mono (fun _ _ hb => hb.sound h)
      fun _ _ hb => hb.sound h

theorem faultless_reduce (holder : Address) (amount : ℕ) :
    Faultless Sound (reduce holder amount) := by
  refine faultless_of (fun book _ => ?_) fun book h => ?_
  · unfold reduce
    simp only [ensures_bind, ensures_get, ensures_set, ensures_lift, ensures_pure, ensures_ite,
      require_eq_ok_iff]
    exact ⟨fun _ hdebt => ⟨fun _ => trivial, fun _ =>
      ⟨fun _ _ => ⟨fun _ _ => trivial, fun _ he => (Amount.faultless_take hdebt).error_ne he⟩,
        fun _ he => (Amount.faultless_sub _ _).error_ne he⟩⟩,
      fun _ he => Checked.faultless_require.error_ne he⟩
  · exact (reduce_confined holder amount book).mono (fun _ _ hb => hb.sound h)
      fun _ _ hb => hb.sound h

theorem faultless_seize (holder : Address) (hshares : shares ≤ Amount.max) :
    Faultless Sound (seize holder reserve shares supply) := by
  refine faultless_of (fun book _ => ?_) fun book h => ?_
  · unfold seize
    simp only [ensures_bind, ensures_get, ensures_set, ensures_lift, ensures_pure, ensures_ite]
    exact ⟨fun _ _ => ⟨fun _ => trivial, fun _ =>
      ⟨fun _ _ => ⟨fun _ _ => trivial, fun _ he => (Amount.faultless_add _ _).error_ne he⟩,
        fun _ he => (Amount.faultless_add _ _).error_ne he⟩⟩,
      fun _ he => (faultless_slice hshares).error_ne he⟩
  · exact (seize_confined holder reserve shares supply book).mono (fun _ _ hb => hb.sound h)
      fun _ _ hb => hb.sound h

/-- The credit is compared before the debt is taken off, and taken off after it. -/
theorem faultless_settle (holder : Address) (s : Settlement) :
    Faultless Sound (settle holder s) := by
  refine faultless_of (fun book h => ?_) fun book h => ?_
  · unfold settle
    simp only [ensures_bind, ensures_get, ensures_lift, require_eq_ok_iff]
    refine ⟨fun _ hcredit => ?_, fun _ he => Checked.faultless_require.error_ne he⟩
    refine (faultless_reduce holder s.debt book h).mono (fun _ b _ => ?_) fun _ _ hb => hb.1
    simp only [ensures_set]
    exact ⟨fun _ _ => ⟨fun _ _ => trivial, fun _ he => (Amount.faultless_take hcredit).error_ne he⟩,
      fun _ he => (Amount.faultless_sub _ _).error_ne he⟩
  · exact (settle_confined holder s book).mono (fun _ _ hb => hb.sound h) fun _ _ hb => hb.sound h

end FeeBook

end PooledCollateral
