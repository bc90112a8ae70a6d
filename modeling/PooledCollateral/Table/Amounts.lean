/-
PooledCollateral.Table.Amounts — an amount for every address.

Only finitely many amounts are other than zero, and only those have a row, so
two such tables with the same amounts are equal (`ext_get`). `total` is the
sum of all amounts.
-/
import PooledCollateral.Table.Basic

namespace PooledCollateral

/-- An amount for every address, zero for all but finitely many. -/
structure Amounts where
  /-- The amounts other than zero. -/
  table : Table Nat
  nonzero : ∀ row ∈ table.rows, row.2 ≠ 0

namespace Amounts

/-- Zero for every address. -/
def empty : Amounts := ⟨Table.empty, fun _ h => by cases h⟩

instance : Inhabited Amounts := ⟨empty⟩

/-- The amount of an address. -/
def get (a : Amounts) (k : Address) : Nat := (a.table.get? k).getD 0

/-- Sets the amount of an address. -/
def set (a : Amounts) (k : Address) (n : Nat) : Amounts :=
  if h : n = 0 then
    ⟨a.table.erase k, fun row hrow => a.nonzero row (List.mem_filter.mp hrow).1⟩
  else
    ⟨a.table.insert k n, fun row hrow => by
      rcases Table.mem_place hrow with heq | hrow
      · rw [heq]
        exact h
      · exact a.nonzero row hrow⟩

/-- The addresses with an amount other than zero, in ascending order. -/
def keys (a : Amounts) : List Address := a.table.keys

/-- The sum of all amounts. -/
def total (a : Amounts) : Nat := a.table.sum id

@[simp] theorem get_empty (k : Address) : empty.get k = 0 := rfl

theorem get_set (a : Amounts) (k j : Address) (n : Nat) :
    (a.set k n).get j = if j = k then n else a.get j := by
  unfold set get
  split
  · rename_i hn
    rw [Table.get?_erase]
    by_cases hj : j = k <;> simp [hj, hn]
  · rw [Table.get?_insert]
    by_cases hj : j = k <;> simp [hj]

@[simp] theorem get_set_self (a : Amounts) (k : Address) (n : Nat) : (a.set k n).get k = n := by
  simp [get_set]

theorem get_set_of_ne (a : Amounts) {k j : Address} (n : Nat) (h : j ≠ k) :
    (a.set k n).get j = a.get j := by
  simp [get_set, h]

/-- Setting an amount puts it in place of the one before in the total. -/
theorem total_set (a : Amounts) (k : Address) (n : Nat) :
    (a.set k n).total + a.get k = a.total + n := by
  have hget : a.get k = Table.weight id (a.table.get? k) := by
    unfold get
    cases a.table.get? k <;> rfl
  rw [hget]
  unfold set total
  split
  · rename_i hn
    have hsum := Table.sum_erase id a.table k
    simp only
    omega
  · have hsum := Table.sum_insert id a.table k n
    simpa using hsum

theorem get?_eq_none_iff {a : Amounts} {k : Address} : a.table.get? k = none ↔ a.get k = 0 := by
  unfold get
  cases hk : a.table.get? k with
  | none => simp
  | some n =>
    have hn := a.nonzero (k, n) (Table.mem_rows_iff.mpr hk)
    simpa using hn

/-- The same amounts make the same table. -/
theorem ext_get : ∀ {a b : Amounts}, (∀ k, a.get k = b.get k) → a = b
  | ⟨t, ht⟩, ⟨u, hu⟩, h => by
    have htu : t = u := Table.ext_get? fun k => by
      have hk := h k
      cases htk : t.get? k with
      | none =>
        have hzero : (⟨u, hu⟩ : Amounts).get k = 0 := by
          rw [← hk]
          exact get?_eq_none_iff.mp htk
        exact (get?_eq_none_iff.mpr hzero).symm
      | some n =>
        have hn := ht (k, n) (Table.mem_rows_iff.mpr htk)
        cases huk : u.get? k with
        | none => simp [get, htk, huk, hn] at hk
        | some m =>
          simp only [get, htk, huk, Option.getD_some] at hk
          rw [hk]
    subst htu
    rfl

end Amounts

end PooledCollateral
