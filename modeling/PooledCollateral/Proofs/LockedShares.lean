/-
PooledCollateral.Proofs.LockedShares — no share leaves from under its lock.

The locks of an account are `Covered` when they are in order and hold no more
than its balance. Minting adds to what is held exactly what it adds to the
balance. A burn lets go of no more than the balance no longer covers, so a burn
or a transfer of free shares lets go of nothing (`burned_holds`, `send_holds`).
In terms of the book: every action leaves all accounts covered, and what anybody
holds, except the owner of shares that are burned in spite of their locks, does
not become less (`Guarded`).
-/
import PooledCollateral.Proofs.LockQueue
import PooledCollateral.Proofs.ShareBook

namespace PooledCollateral

open PooledCollateral.Action Function

variable {now t shares amount : ℕ}

/-! ## Accounts -/

namespace Account

variable {a b : Account}

/-- The shares of the account under locks that run past a time. -/
def held (a : Account) (t : ℕ) : ℕ := LockQueue.held a.locks.locks t

/-- The locks are in order, and what they hold is part of the balance. -/
structure Covered (now : ℕ) (a : Account) : Prop where
  inOrder : LockQueue.InOrder a.locks.locks
  held_le : a.held now ≤ a.balance

/-- What is held at any time from `now` on does not become less. -/
def Holds (now : ℕ) (a b : Account) : Prop := ∀ t, now ≤ t → a.held t ≤ b.held t

theorem covered_empty (now : ℕ) : empty.Covered now := ⟨LockQueue.InOrder.nil, Nat.zero_le _⟩

theorem Covered.mono (h : a.Covered now) (ht : now ≤ t) : a.Covered t :=
  ⟨h.inOrder, (LockQueue.held_anti ht).trans h.held_le⟩

/-- The locked balance of a covered account is what its locks hold. -/
theorem Covered.lockedBalance {locked : ℕ} (h : a.Covered now)
    (hlocked : a.lockedBalance now = .ok locked) : locked = a.held now := by
  obtain ⟨_, hamount, hreturn⟩ := Checked.bind_eq_ok_iff.mp hlocked
  obtain ⟨rfl, -⟩ := (LockQueue.lockedAmount_eq_ok_iff h.inOrder).mp hamount
  cases hreturn
  exact min_eq_left h.held_le

/-- Nothing changes for the locks when only ended ones are dropped. -/
theorem holds_of_cleared (h : LockQueue.Cleared now a.locks.locks b.locks.locks) : a.Holds now b :=
  fun _ ht => (h.held_eq ht).ge

/-- New shares are held until their own lock ends. -/
theorem held_minted (a : Account) (shares unlockTime t : ℕ) :
    (ShareBook.minted a shares unlockTime).held t
      = a.held t + if t < a.locks.unlockTimeFor unlockTime then shares else 0 :=
  LockQueue.held_push a.locks shares unlockTime t

theorem covered_minted (h : a.Covered now) (shares unlockTime : ℕ) :
    (ShareBook.minted a shares unlockTime).Covered now := by
  refine ⟨LockQueue.inOrder_push h.inOrder shares unlockTime, ?_⟩
  have hle := h.held_le
  rw [held_minted]
  simp only [ShareBook.minted]
  split_ifs <;> omega

/-- A burn lets go of what the balance no longer covers, and of nothing else: at any time
to come as much stays held as the balance has shares for. -/
theorem burn_held (h : LockQueue.InOrder a.locks.locks) (hburn : a.burn shares now = .ok b) :
    LockQueue.InOrder b.locks.locks ∧ ∀ t, now ≤ t → b.held t = min (a.held t) b.balance := by
  obtain ⟨-, _, released, hlocked, hreleased, hclear⟩ := burn_ok hburn
  obtain ⟨rfl, -⟩ := (LockQueue.lockedAmount_eq_ok_iff h).mp hlocked
  have hcleared := LockQueue.cleared_consumeExpired hclear
  simp only [held]
  split at hreleased
  · rename_i hshort
    obtain ⟨horder, hcut⟩ := LockQueue.consumeLocked_ok h hreleased
    refine ⟨hcleared.inOrder horder, fun t ht => ?_⟩
    rw [hcleared.held_eq ht, hcut t ht, Nat.sub_sub_self hshort.le]
  · rename_i hcovered
    cases hreleased
    refine ⟨hcleared.inOrder h, fun t ht => ?_⟩
    -- all that is held now is covered, and later on no more is held
    have hlater := (LockQueue.held_anti ht).trans (Nat.not_lt.mp hcovered)
    rw [hcleared.held_eq ht, min_eq_left hlater]

theorem burned_covered (h : a.Covered now) (hburn : ShareBook.burned a shares now = .ok b) :
    b.Covered now := by
  unfold ShareBook.burned at hburn
  split at hburn
  · cases hburn
    exact h
  · obtain ⟨horder, hheld⟩ := burn_held h.inOrder hburn
    exact ⟨horder, (hheld now (Nat.le_refl now)).trans_le (Nat.min_le_right _ _)⟩

/-- A burn of free shares lets go of nothing. -/
theorem burned_holds (h : a.Covered now) (hfree : shares ≤ a.balance - a.held now)
    (hburn : ShareBook.burned a shares now = .ok b) : a.Holds now b := by
  have hle := h.held_le
  have hbalance := (ShareBook.balance_burned hburn).1
  unfold ShareBook.burned at hburn
  split at hburn
  · cases hburn
    exact fun _ _ => Nat.le_refl _
  · intro t ht
    have hlater : a.held t ≤ a.held now := LockQueue.held_anti ht
    rw [(burn_held h.inOrder hburn).2 t ht]
    omega

/-- Free shares can be sent away without letting go of any that are held. -/
theorem send_holds (h : a.Covered now) (hfree : shares ≤ a.balance - a.held now)
    (hsend : a.send shares now = .ok b) : b.Covered now ∧ a.Holds now b := by
  have hle := h.held_le
  simp only [send, Checked.bind_eq_ok_iff, Amount.take_eq_ok_iff] at hsend
  obtain ⟨_, ⟨rfl, hshares⟩, _, hclear, hreturn⟩ := hsend
  cases hreturn
  have hcleared := LockQueue.cleared_consumeExpired hclear
  have hleft := hcleared.held_eq (Nat.le_refl now)
  refine ⟨⟨hcleared.inOrder h.inOrder, ?_⟩, holds_of_cleared hcleared⟩
  simp only [held] at hfree hle ⊢
  omega

end Account

/-! ## The book -/

namespace ShareBook

variable {book b : ShareBook} {holder : Address} {exempt : List Address} {a : Account}

/-- Every account is covered. -/
def Covered (now : ℕ) (book : ShareBook) : Prop := ∀ holder, (book.accountOf holder).Covered now

/-- Every account is covered, and nobody who is not exempt holds less than in
the book before. -/
structure Guarded (now : ℕ) (exempt : List Address) (book b : ShareBook) : Prop where
  covered : b.Covered now
  holds : ∀ holder, holder ∉ exempt → (book.accountOf holder).Holds now (b.accountOf holder)

theorem covered_of_fresh (now : ℕ) : empty.Covered now := fun _ => Account.covered_empty now

theorem Covered.mono (h : book.Covered now) (ht : now ≤ t) : book.Covered t := fun holder =>
  (h holder).mono ht

/-- In a book of covered accounts the locked amount of a holder can be told, and
is no more than its balance. -/
theorem Covered.lockedAmount (h : book.Covered now) (hs : book.Sound) (holder : Address) :
    ∃ locked, (book.locksOf holder).lockedAmount now = .ok locked ∧
      locked ≤ book.balanceOf holder := by
  have hbalance := hs.balance_le holder
  have hsupply := hs.supply_le
  have hheld := (h holder).held_le
  rw [locksOf_eq, balanceOf_eq]
  refine ⟨(book.accountOf holder).held now, ?_, hheld⟩
  exact (LockQueue.lockedAmount_eq_ok_iff (h holder).inOrder).mpr ⟨rfl, by
    simp only [Account.held] at hheld
    omega⟩

theorem Covered.lockedBalance (h : book.Covered now) {locked : ℕ}
    (hlocked : book.lockedBalance holder now = .ok locked) :
    locked = (book.accountOf holder).held now := by
  have hholder := h holder
  unfold ShareBook.lockedBalance at hlocked
  unfold accountOf at hholder ⊢
  cases haccount : book.accounts.get? holder with
  | none =>
    rw [haccount] at hlocked
    cases hlocked
    rfl
  | some a =>
    rw [haccount] at hlocked hholder
    exact hholder.lockedBalance hlocked

theorem guarded_of_same (h : book.Covered now) (haccounts : b.accountOf = book.accountOf) :
    Guarded now exempt book b := by
  refine ⟨fun holder => ?_, fun holder _ t _ => ?_⟩
  · rw [haccounts]
    exact h holder
  · rw [haccounts]

theorem guarded_of_update (h : book.Covered now)
    (haccounts : b.accountOf = update book.accountOf holder a) (ha : a.Covered now)
    (hholds : holder ∉ exempt → (book.accountOf holder).Holds now a) :
    Guarded now exempt book b := by
  constructor
  · intro other
    rw [haccounts]
    by_cases hother : other = holder
    · rw [hother, update_self]
      exact ha
    · rw [update_of_ne hother]
      exact h other
  · intro other hexempt t ht
    rw [haccounts]
    by_cases hother : other = holder
    · subst hother
      rw [update_self]
      exact hholds hexempt t ht
    · rw [update_of_ne hother]

/-- New shares come under their own lock; the older locks stay. -/
theorem guarded_of_minted (h : book.Covered now) {unlockTime : ℕ}
    (haccounts : b.accountOf = update book.accountOf holder
      (minted (book.accountOf holder) shares unlockTime)) : Guarded now [] book b := by
  refine guarded_of_update h haccounts (Account.covered_minted (h holder) _ _) fun _ t _ => ?_
  rw [Account.held_minted]
  exact Nat.le_add_right _ _

/-- Ended locks can be cleared away. -/
theorem cleanup_guarded (h : book.Covered now) (holder : Address) (limit : ℕ) :
    Guarded now [] book (book.cleanup holder now limit) := by
  have hcleared := LockQueue.cleared_dropExpired now limit (book.accountOf holder).locks.locks
  refine guarded_of_update h (accountOf_cleanup book holder now limit) ⟨?_, ?_⟩ fun _ =>
    Account.holds_of_cleared hcleared
  · exact hcleared.inOrder (h holder).inOrder
  · exact (hcleared.held_eq (Nat.le_refl now)).trans_le (h holder).held_le

/-- A transfer of free shares leaves everybody what is held; the receiver's locks
stay as they are. -/
theorem transfer_guarded (h : book.Covered now) {sender receiver : Address}
    {restriction : Restriction} (hlocked : restriction.locked = (book.accountOf sender).held now) :
    (transfer sender receiver amount restriction now).Ensures book
      (fun _ b => Guarded now [] book b) (fun _ b => Guarded now [] book b) := by
  refine (transfer_ensures book sender receiver amount restriction now).mono ?_ ?_
  · intro _ b hpost
    obtain ⟨hallowed, ⟨-, rfl⟩ | ⟨-, hdiff, -, a, ha, haccounts⟩⟩ := hpost
    · exact guarded_of_same h rfl
    · have hfree : amount ≤ (book.accountOf sender).balance - (book.accountOf sender).held now := by
        rw [← hlocked, ← balanceOf_eq]
        exact hallowed.trans (Nat.min_le_left _ _)
      obtain ⟨hcovered, hholds⟩ := Account.send_holds (h sender) hfree ha
      -- the book half-way, with the sender debited and the receiver not yet credited
      let sent : ShareBook := { book with accounts := settle book.accounts sender a }
      have hsent : sent.accountOf = update book.accountOf sender a :=
        accountOf_settle book book.supply sender a
      have hguarded : Guarded now [] book sent := guarded_of_update h hsent hcovered fun _ => hholds
      have hreceiver : sent.accountOf receiver = book.accountOf receiver := by
        rw [hsent, update_of_ne hdiff.symm]
      rw [← hsent] at haccounts
      have hcredited : Guarded now [] sent b := by
        refine guarded_of_update hguarded.covered haccounts ⟨(h receiver).inOrder, ?_⟩ ?_
        · exact (h receiver).held_le.trans (Nat.le_add_right _ _)
        · intro _ t _
          rw [hreceiver]
          exact Nat.le_refl _
      exact ⟨hcredited.covered, fun other hother t ht =>
        (hguarded.holds other hother t ht).trans (hcredited.holds other hother t ht)⟩
  · intro _ b heq
    exact guarded_of_same h (congrArg accountOf heq)

end ShareBook

end PooledCollateral
