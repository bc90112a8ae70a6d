/-
PooledCollateral.Proofs.TokenBook — what sending tokens does to the balances.

A transfer either moves its tokens (`moved`) or changes nothing, unless the receiver
`Overflows` (`transfer_exact`); as long as all balances together are an amount, that
does not happen (`transfer_ensures`). What is moved can be moved back
(`moved_moved`), and no tokens come or go (`total_moved`).
-/
import PooledCollateral.TokenBook
import PooledCollateral.Proofs.Action
import PooledCollateral.Proofs.Sums

namespace PooledCollateral

open PooledCollateral.Action

/-- Two accounts together hold no more than all do. -/
theorem Amounts.get_add_get_le_total (a : Amounts) {j k : Address} (h : j ≠ k) :
    a.get j + a.get k ≤ a.total := by
  rw [total_eq_sum, ← Finset.add_sum_erase _ _ (Finset.mem_univ k)]
  have hj := Finset.single_le_sum (f := a.get) (fun _ _ => Nat.zero_le _)
    (Finset.mem_erase.mpr ⟨h, Finset.mem_univ j⟩)
  omega

namespace TokenBook

/-- All tokens. -/
def total (book : TokenBook) : ℕ := book.balances.total

/-- The book after tokens have been moved. -/
def moved (book : TokenBook) (sender receiver : Address) (amount : ℕ) : TokenBook :=
  if amount = 0 ∨ sender = receiver then book
  else
    { book with
      balances := (book.balances.set sender (book.balanceOf sender - amount)).set receiver
        (book.balanceOf receiver + amount) }

variable {book : TokenBook} {sender receiver : Address} {amount : ℕ}

/-! ## Balances -/

theorem moved_of_none (h : amount = 0 ∨ sender = receiver) :
    book.moved sender receiver amount = book := if_pos h

theorem balanceOf_moved_of_ne (book : TokenBook) (amount : ℕ) (h : sender ≠ receiver)
    (account : Address) :
    (book.moved sender receiver amount).balanceOf account =
      if account = receiver then book.balanceOf receiver + amount
      else if account = sender then book.balanceOf sender - amount
      else book.balanceOf account := by
  by_cases hzero : amount = 0
  · rw [moved_of_none (Or.inl hzero), hzero]
    split
    · rename_i haccount
      rw [haccount, Nat.add_zero]
    · split
      · rename_i haccount
        rw [haccount, Nat.sub_zero]
      · rfl
  · rw [moved, if_neg (not_or.mpr ⟨hzero, h⟩)]
    simp only [balanceOf, Amounts.get_set]

theorem balanceOf_moved_receiver (h : sender ≠ receiver) :
    (book.moved sender receiver amount).balanceOf receiver = book.balanceOf receiver + amount := by
  rw [balanceOf_moved_of_ne book amount h, if_pos rfl]

/-- A sender does not lose more than it sends. -/
theorem balanceOf_moved_sender :
    book.balanceOf sender ≤ (book.moved sender receiver amount).balanceOf sender + amount := by
  by_cases h : sender = receiver
  · rw [moved_of_none (Or.inr h)]
    exact Nat.le_add_right _ _
  · rw [balanceOf_moved_of_ne book amount h, if_neg h, if_pos rfl]
    omega

theorem total_moved (h : amount ≤ book.balanceOf sender) :
    (book.moved sender receiver amount).total = book.total := by
  by_cases hnone : amount = 0 ∨ sender = receiver
  · rw [moved_of_none hnone]
  · have hdiff := (not_or.mp hnone).2
    rw [moved, if_neg hnone]
    have hdebit := Amounts.total_set book.balances sender (book.balanceOf sender - amount)
    have hcredit := Amounts.total_set
      (book.balances.set sender (book.balanceOf sender - amount)) receiver
      (book.balanceOf receiver + amount)
    rw [Amounts.get_set_of_ne _ _ (Ne.symm hdiff)] at hcredit
    unfold balanceOf at h hdebit hcredit ⊢
    simp only [total]
    omega

/-- What has been moved can be moved back. -/
theorem moved_moved (h : amount ≤ book.balanceOf sender) :
    ((book.moved sender receiver amount).moved receiver sender amount).balances
      = book.balances := by
  by_cases hnone : amount = 0 ∨ sender = receiver
  · rw [moved_of_none hnone, moved_of_none (hnone.imp id Eq.symm)]
  · have hdiff := (not_or.mp hnone).2
    refine Amounts.ext_get fun account => ?_
    have hthere := balanceOf_moved_of_ne book amount hdiff
    have hback := balanceOf_moved_of_ne (book.moved sender receiver amount) amount
      (Ne.symm hdiff) account
    rw [hthere, hthere, hthere] at hback
    refine hback.trans ?_
    rw [if_neg hdiff, if_pos rfl, if_pos rfl]
    split
    · rename_i haccount
      rw [haccount]
      exact Nat.sub_add_cancel h
    · split
      · rename_i haccount
        rw [haccount]
        exact Nat.add_sub_cancel _ _
      · rfl

/-- Equal balances stay equal when the same is moved. -/
theorem balances_moved_congr {b : TokenBook} (h : b.balances = book.balances) :
    (b.moved sender receiver amount).balances = (book.moved sender receiver amount).balances := by
  unfold moved balanceOf
  rw [h]
  split
  · exact h
  · rfl

/-! ## Actions -/

/-- The sender has the tokens, but the receiver would hold more than the largest
amount. -/
structure Overflows (book : TokenBook) (sender receiver : Address) (amount : ℕ) : Prop where
  available : amount ≤ book.balanceOf sender
  amount_ne : amount ≠ 0
  sender_ne : sender ≠ receiver
  exceeds : Amount.max < book.balanceOf receiver + amount

/-- The receiver and the sender together hold no more than all do. -/
theorem not_overflows (hbook : book.total ≤ Amount.max) :
    ¬ book.Overflows sender receiver amount := by
  intro h
  have hboth := Amounts.get_add_get_le_total book.balances h.sender_ne.symm
  have havailable := h.available
  have hexceeds := h.exceeds
  unfold total at hbook
  unfold balanceOf at havailable hexceeds
  omega

/-- The book after tokens have been taken off a sender, and given to nobody. -/
def debited (book : TokenBook) (sender : Address) (amount : ℕ) : TokenBook :=
  { book with balances := book.balances.set sender (book.balanceOf sender - amount) }

/-- A transfer moves what the sender has; but where the receiver would hold too much,
the sender has been debited before that is found. -/
theorem transfer_exact (book : TokenBook) (sender receiver : Address) (amount : ℕ) :
    (transfer sender receiver amount).Ensures book
      (fun _ b => amount ≤ book.balanceOf sender ∧ ¬ book.Overflows sender receiver amount ∧
        b = book.moved sender receiver amount)
      (fun e b => (book.balanceOf sender < amount ∧ b = book) ∨
        (book.Overflows sender receiver amount ∧ e = .rejected .overflow ∧
          b = book.debited sender amount)) := by
  unfold transfer
  simp only [ensures_bind, ensures_get, ensures_set, ensures_lift, ensures_pure, ensures_ite,
    Amount.add_eq_ok_iff, require_eq_ok_iff]
  refine ⟨fun _ hle => ⟨fun hnone => ⟨hle, ?_, (moved_of_none hnone).symm⟩, fun hsome => ?_⟩, ?_⟩
  · exact fun hover => hnone.elim hover.amount_ne hover.sender_ne
  · obtain ⟨hamount, hdiff⟩ := not_or.mp hsome
    have hget : (book.balances.set sender (book.balanceOf sender - amount)).get receiver
        = book.balanceOf receiver := Amounts.get_set_of_ne _ _ (Ne.symm hdiff)
    rw [hget]
    refine ⟨?_, fun e he => Or.inr ?_⟩
    · intro _ hpost
      obtain ⟨rfl, hfits⟩ := hpost
      rw [moved, if_neg hsome]
      exact ⟨hle, fun hover => Nat.not_le_of_lt hover.exceeds hfits, rfl⟩
    · unfold Amount.add Amount.fit reject at he
      split at he
      · cases he
      · rename_i hexceeds
        cases he
        exact ⟨⟨hle, hamount, hdiff, Nat.lt_of_not_le hexceeds⟩, rfl, rfl⟩
  · intro e he
    refine Or.inl ⟨?_, trivial⟩
    by_contra hnot
    rw [require, if_pos (Nat.le_of_not_lt hnot)] at he
    cases he

/-- While all balances together are an amount, a transfer moves what the sender has,
or changes nothing. -/
theorem transfer_ensures (hbook : book.total ≤ Amount.max) :
    (transfer sender receiver amount).Ensures book
      (fun _ b => amount ≤ book.balanceOf sender ∧ b = book.moved sender receiver amount)
      (fun _ b => book.balanceOf sender < amount ∧ b = book) :=
  (transfer_exact book sender receiver amount).mono (fun _ _ h => ⟨h.1, h.2.2⟩)
    fun _ _ h => h.resolve_right fun hover => not_overflows hbook hover.1

/-- Likewise a transfer on approval, but for the approval that is used up. -/
theorem transferFrom_ensures {spender owner : Address} (hbook : book.total ≤ Amount.max) :
    (transferFrom spender owner receiver amount).Ensures book
      (fun _ b => amount ≤ book.balanceOf owner ∧
        b.balances = (book.moved owner receiver amount).balances)
      (fun _ b => b = book) := by
  unfold transferFrom
  simp only [ensures_bind, ensures_get, ensures_lift, require_eq_ok_iff]
  refine ⟨fun _ _ => ?_, fun _ _ => trivial⟩
  refine (transfer_ensures hbook).mono ?_ fun _ _ h => h.2
  intro _ b hpost
  obtain ⟨hle, rfl⟩ := hpost
  exact ensures_modify.mpr ⟨hle, rfl⟩

theorem allowance_approve (book : TokenBook) (owner spender : Address) (amount : ℕ)
    (owner' spender' : Address) :
    (book.approve owner spender amount).allowance owner' spender' =
      if owner' = owner ∧ spender' = spender then amount else book.allowance owner' spender' := by
  unfold allowance approve
  rw [Table.get?_insert]
  by_cases howner : owner' = owner
  · simp [howner, Amounts.get_set]
  · simp [howner]

/-- Making tokens takes nothing from anybody. -/
theorem balanceOf_le_mint (h : book.total ≤ Amount.max) (account : Address) (amount : ℕ)
    (other : Address) : book.balanceOf other ≤ (book.mint account amount).balanceOf other := by
  unfold mint
  simp only [balanceOf, Amounts.get_set]
  by_cases hother : other = account
  · rw [if_pos hother, hother]
    exact le_min (Nat.le_add_right _ _) ((book.balances.get_le_total account).trans h)
  · rw [if_neg hother]

end TokenBook

end PooledCollateral
