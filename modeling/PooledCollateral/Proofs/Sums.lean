/-
PooledCollateral.Proofs.Sums — sums over all addresses.

There are finitely many addresses, so what a table adds up over its rows is a
sum over all addresses, with nothing for those that have no row
(`Table.sum_eq_sum`, `Amounts.total_eq_sum`). In this form a change at one
address is a change of one summand, whichever table it is kept in.
-/
import PooledCollateral.Table.Amounts
import Mathlib.Algebra.BigOperators.Group.Finset.Basic
import Mathlib.Algebra.Order.BigOperators.Group.Finset
import Mathlib.Data.Fintype.BigOperators
import Mathlib.Data.Fintype.EquivFin
import Mathlib.Tactic.Linarith

namespace PooledCollateral

open Finset

/-- The addresses are finitely many. -/
noncomputable instance : Fintype Address :=
  Fintype.ofInjective (fun a => (⟨a.toNat, a.toNat_lt⟩ : Fin (Bytes.count 20)))
    fun _ _ h => Address.eq_of_toNat_eq (congrArg Fin.val h)

variable {α : Type}

/-! ## Tables -/

/-- The sum over rows in order is the sum over all addresses. -/
theorem Table.sumRows_eq_sum (f : α → ℕ) {rows : List (Address × α)}
    (h : rows.Pairwise (fun a b => a.1 < b.1)) :
    sumRows f rows = ∑ k, Table.weight f (Table.find? k rows) := by
  induction rows with
  | nil => simp [Table.find?, sumRows]
  | cons first rest ih =>
    obtain ⟨j, v⟩ := first
    rw [List.pairwise_cons] at h
    have hnone : Table.find? j rest = none := Table.find?_eq_none h.1
    have hsplit : ∀ k, Table.weight f (Table.find? k ((j, v) :: rest))
        = (if k = j then f v else 0) + Table.weight f (Table.find? k rest) := by
      intro k
      by_cases hk : k = j
      · subst hk
        simp [Table.find?, hnone]
      · simp [Table.find?, hk]
    simp only [sumRows, ih h.2, hsplit, sum_add_distrib]
    simp

theorem Table.sum_eq_sum (f : α → ℕ) (t : Table α) :
    t.sum f = ∑ k, Table.weight f (t.get? k) := Table.sumRows_eq_sum f t.ascending

theorem Amounts.total_eq_sum (a : Amounts) : a.total = ∑ k, a.get k := by
  have hget : ∀ k, a.get k = Table.weight id (a.table.get? k) := by
    intro k
    unfold Amounts.get
    cases a.table.get? k <;> rfl
  simp only [hget]
  exact Table.sum_eq_sum id a.table

theorem Amounts.get_le_total (a : Amounts) (k : Address) : a.get k ≤ a.total := by
  rw [total_eq_sum]
  exact single_le_sum (fun _ _ => Nat.zero_le _) (mem_univ k)

theorem Amounts.get_set_eq_update (a : Amounts) (k : Address) (n : ℕ) :
    (a.set k n).get = Function.update a.get k n := by
  funext j
  rw [Amounts.get_set, Function.update_apply]

/-! ## One summand at a time -/

/-- Bounds on all summands but one bound the whole sum. -/
theorem sum_le_of_off {f g e : Address → ℚ} (i : Address) (h : ∀ j, j ≠ i → g j ≤ f j + e j) :
    ∑ j, g j ≤ ∑ j, f j + ∑ j, e j + (g i - f i - e i) := by
  have hrest : ∑ j ∈ univ.erase i, g j ≤ ∑ j ∈ univ.erase i, (f j + e j) :=
    sum_le_sum fun j hj => h j (ne_of_mem_erase hj)
  rw [sum_add_distrib] at hrest
  rw [← add_sum_erase univ f (mem_univ i), ← add_sum_erase univ g (mem_univ i),
    ← add_sum_erase univ e (mem_univ i)]
  linarith

end PooledCollateral
