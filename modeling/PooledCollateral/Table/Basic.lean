/-
PooledCollateral.Table.Basic — tables with one row per address, in address order.

A table is a list of rows whose addresses strictly ascend. It is read through
`get?`, and two tables that read alike are equal (`ext_get?`). `insert` and
`erase` change the row of one address, and `sum` adds a quantity up over all
rows; `sum_insert` and `sum_erase` say how a change of one row moves the sum.
-/
import PooledCollateral.Address

namespace PooledCollateral

/-- A table with one row per address. -/
structure Table (α : Type) where
  /-- The rows, by ascending address. -/
  rows : List (Address × α)
  ascending : rows.Pairwise (fun a b => a.1 < b.1)

namespace Table

variable {α : Type}

/-! ## Rows -/

/-- The value beside an address in a list of rows. -/
def find? (k : Address) : List (Address × α) → Option α
  | [] => none
  | (j, v) :: rest => if k = j then some v else find? k rest

/-- Puts a row where its address belongs, in place of the row there is. -/
def place (k : Address) (v : α) : List (Address × α) → List (Address × α)
  | [] => [(k, v)]
  | (j, w) :: rest =>
    if k < j then (k, v) :: (j, w) :: rest
    else if k = j then (k, v) :: rest
    else (j, w) :: place k v rest

/-- Leaves out the row of an address. -/
def remove (k : Address) (rows : List (Address × α)) : List (Address × α) :=
  rows.filter fun row => row.1 ≠ k

theorem mem_place {k : Address} {v : α} {row : Address × α} {rows : List (Address × α)}
    (h : row ∈ place k v rows) : row = (k, v) ∨ row ∈ rows := by
  induction rows with
  | nil => simpa [place] using h
  | cons first rest ih =>
    obtain ⟨j, w⟩ := first
    simp only [place] at h
    split at h
    · simpa using h
    · split at h
      · rcases List.mem_cons.mp h with h | h
        · exact Or.inl h
        · exact Or.inr (List.mem_cons_of_mem _ h)
      · rcases List.mem_cons.mp h with h | h
        · exact Or.inr (h ▸ List.mem_cons_self)
        · rcases ih h with h | h
          · exact Or.inl h
          · exact Or.inr (List.mem_cons_of_mem _ h)

theorem pairwise_place (k : Address) (v : α) {rows : List (Address × α)}
    (h : rows.Pairwise (fun a b => a.1 < b.1)) :
    (place k v rows).Pairwise (fun a b => a.1 < b.1) := by
  induction rows with
  | nil => simp [place]
  | cons first rest ih =>
    obtain ⟨j, w⟩ := first
    rw [List.pairwise_cons] at h
    simp only [place]
    split
    · rename_i hlt
      refine List.pairwise_cons.mpr ⟨fun row hrow => ?_, List.pairwise_cons.mpr h⟩
      rcases List.mem_cons.mp hrow with rfl | hrow
      · exact hlt
      · exact Address.lt_trans hlt (h.1 row hrow)
    · split
      · rename_i heq
        exact List.pairwise_cons.mpr ⟨fun row hrow => heq ▸ h.1 row hrow, h.2⟩
      · rename_i hnot hne
        refine List.pairwise_cons.mpr ⟨fun row hrow => ?_, ih h.2⟩
        rcases mem_place hrow with rfl | hrow
        · exact Address.lt_of_not_lt hnot hne
        · exact h.1 row hrow

theorem find?_place (k j : Address) (v : α) (rows : List (Address × α)) :
    find? j (place k v rows) = if j = k then some v else find? j rows := by
  induction rows with
  | nil => simp [place, find?]
  | cons first rest ih =>
    obtain ⟨i, w⟩ := first
    simp only [place]
    split
    · simp [find?]
    · split
      · rename_i heq
        subst heq
        by_cases hj : j = k <;> simp [find?, hj]
      · rename_i hne
        simp only [find?, ih]
        by_cases hi : j = i
        · subst hi
          simp [Ne.symm hne]
        · simp [hi]

theorem find?_remove (k j : Address) (rows : List (Address × α)) :
    find? j (remove k rows) = if j = k then none else find? j rows := by
  induction rows with
  | nil => simp [remove, find?]
  | cons first rest ih =>
    obtain ⟨i, w⟩ := first
    simp only [remove, List.filter_cons] at ih ⊢
    split
    · rename_i hi
      simp only [find?, ih]
      by_cases hj : j = i
      · subst hj
        simp_all
      · simp [hj]
    · rename_i hi
      simp only [ih, find?]
      simp at hi
      subst hi
      by_cases hj : j = i <;> simp [hj]

/-- Nothing is found beside an address that comes before all rows. -/
theorem find?_eq_none {k : Address} {rows : List (Address × α)}
    (h : ∀ row ∈ rows, k < row.1) : find? k rows = none := by
  induction rows with
  | nil => rfl
  | cons first rest ih =>
    have hne : k ≠ first.1 := Address.ne_of_lt (h first List.mem_cons_self)
    simp [find?, hne, ih fun row hrow => h row (List.mem_cons_of_mem _ hrow)]

theorem mem_of_find? {k : Address} {v : α} {rows : List (Address × α)}
    (h : find? k rows = some v) : (k, v) ∈ rows := by
  induction rows with
  | nil => simp [find?] at h
  | cons first rest ih =>
    obtain ⟨j, w⟩ := first
    simp only [find?] at h
    split at h
    · rename_i heq
      cases h
      exact heq ▸ List.mem_cons_self
    · exact List.mem_cons_of_mem _ (ih h)

theorem find?_of_mem {k : Address} {v : α} {rows : List (Address × α)}
    (hrows : rows.Pairwise (fun a b => a.1 < b.1)) (h : (k, v) ∈ rows) :
    find? k rows = some v := by
  induction rows with
  | nil => cases h
  | cons first rest ih =>
    obtain ⟨j, w⟩ := first
    rw [List.pairwise_cons] at hrows
    rcases List.mem_cons.mp h with heq | hmem
    · cases heq
      simp [find?]
    · have hne : k ≠ j := (Address.ne_of_lt (hrows.1 (k, v) hmem)).symm
      simp [find?, hne, ih hrows.2 hmem]

/-! ## Tables -/

/-- The table without rows. -/
def empty : Table α := ⟨[], List.Pairwise.nil⟩

instance : Inhabited (Table α) := ⟨empty⟩

/-- The row of an address. -/
def get? (t : Table α) (k : Address) : Option α := find? k t.rows

/-- Sets the row of an address. -/
def insert (t : Table α) (k : Address) (v : α) : Table α :=
  ⟨place k v t.rows, pairwise_place k v t.ascending⟩

/-- Removes the row of an address. -/
def erase (t : Table α) (k : Address) : Table α :=
  ⟨remove k t.rows, t.ascending.filter _⟩

/-- The addresses that have a row, in ascending order. -/
def keys (t : Table α) : List Address := t.rows.map (·.1)

@[simp] theorem get?_empty (k : Address) : (empty : Table α).get? k = none := rfl

theorem get?_insert (t : Table α) (k j : Address) (v : α) :
    (t.insert k v).get? j = if j = k then some v else t.get? j := find?_place k j v t.rows

@[simp] theorem get?_insert_self (t : Table α) (k : Address) (v : α) :
    (t.insert k v).get? k = some v := by
  simp [get?_insert]

theorem get?_insert_of_ne (t : Table α) {k j : Address} (v : α) (h : j ≠ k) :
    (t.insert k v).get? j = t.get? j := by
  simp [get?_insert, h]

theorem get?_erase (t : Table α) (k j : Address) :
    (t.erase k).get? j = if j = k then none else t.get? j := find?_remove k j t.rows

@[simp] theorem get?_erase_self (t : Table α) (k : Address) : (t.erase k).get? k = none := by
  simp [get?_erase]

theorem get?_erase_of_ne (t : Table α) {k j : Address} (h : j ≠ k) :
    (t.erase k).get? j = t.get? j := by
  simp [get?_erase, h]

theorem mem_rows_iff {t : Table α} {k : Address} {v : α} :
    (k, v) ∈ t.rows ↔ t.get? k = some v :=
  ⟨find?_of_mem t.ascending, mem_of_find?⟩

/-- Rows in strict order are settled by what is found beside each address. -/
theorem rows_eq_of_find? {xs ys : List (Address × α)}
    (hxs : xs.Pairwise (fun a b => a.1 < b.1)) (hys : ys.Pairwise (fun a b => a.1 < b.1))
    (h : ∀ k, find? k xs = find? k ys) : xs = ys := by
  induction xs generalizing ys with
  | nil =>
    cases ys with
    | nil => rfl
    | cons first rest =>
      have hk := h first.1
      simp [find?] at hk
  | cons x xs ih =>
    cases ys with
    | nil =>
      have hk := h x.1
      simp [find?] at hk
    | cons y ys =>
      rw [List.pairwise_cons] at hxs hys
      obtain ⟨j, v⟩ := x
      obtain ⟨k, w⟩ := y
      have hjk : j = k := by
        by_cases hlt : j < k
        · have hnone : find? j ((k, w) :: ys) = none := find?_eq_none fun row hrow => by
            rcases List.mem_cons.mp hrow with rfl | hrow
            · exact hlt
            · exact Address.lt_trans hlt (hys.1 row hrow)
          have hj := h j
          rw [hnone] at hj
          simp [find?] at hj
        · by_cases heq : j = k
          · exact heq
          · have hgt := Address.lt_of_not_lt hlt heq
            have hnone : find? k ((j, v) :: xs) = none := find?_eq_none fun row hrow => by
              rcases List.mem_cons.mp hrow with rfl | hrow
              · exact hgt
              · exact Address.lt_trans hgt (hxs.1 row hrow)
            have hk := h k
            rw [hnone] at hk
            simp [find?] at hk
      subst hjk
      have hvw : v = w := by
        have hj := h j
        simpa [find?] using hj
      subst hvw
      have htail : ∀ i, find? i xs = find? i ys := fun i => by
        by_cases hi : i = j
        · rw [hi, find?_eq_none hxs.1, find?_eq_none hys.1]
        · have hstep := h i
          simpa [find?, hi] using hstep
      rw [ih hxs.2 hys.2 htail]

/-- Two tables that read alike are equal. -/
theorem ext_get? : ∀ {t u : Table α}, (∀ k, t.get? k = u.get? k) → t = u
  | ⟨xs, hxs⟩, ⟨ys, hys⟩, h => by
    have hrows : xs = ys := rows_eq_of_find? hxs hys h
    subst hrows
    rfl

/-! ## Sums -/

/-- The sum of a quantity over a list of rows. -/
def sumRows (f : α → Nat) : List (Address × α) → Nat
  | [] => 0
  | (_, v) :: rest => f v + sumRows f rest

/-- The sum of a quantity over all rows. -/
def sum (f : α → Nat) (t : Table α) : Nat := sumRows f t.rows

/-- The part of a row in a sum: nothing where there is no row. -/
def weight (f : α → Nat) (row : Option α) : Nat := (row.map f).getD 0

@[simp] theorem weight_none (f : α → Nat) : weight f none = 0 := rfl

@[simp] theorem weight_some (f : α → Nat) (v : α) : weight f (some v) = f v := rfl

@[simp] theorem sum_empty (f : α → Nat) : sum f empty = 0 := rfl

theorem sum_place (f : α → Nat) (k : Address) (v : α) {rows : List (Address × α)}
    (h : rows.Pairwise (fun a b => a.1 < b.1)) :
    sumRows f (place k v rows) + weight f (find? k rows) = sumRows f rows + f v := by
  induction rows with
  | nil => simp [place, find?, sumRows]
  | cons first rest ih =>
    obtain ⟨j, w⟩ := first
    rw [List.pairwise_cons] at h
    simp only [place]
    split
    · rename_i hlt
      have hnone : find? k ((j, w) :: rest) = none := find?_eq_none fun row hrow => by
        rcases List.mem_cons.mp hrow with rfl | hrow
        · exact hlt
        · exact Address.lt_trans hlt (h.1 row hrow)
      rw [hnone]
      simp only [sumRows, weight_none]
      omega
    · split
      · rename_i heq
        subst heq
        simp only [sumRows, find?, if_true, weight_some]
        omega
      · rename_i hne
        have hrest := ih h.2
        simp only [sumRows, find?, hne, if_false]
        omega

theorem sum_remove (f : α → Nat) (k : Address) {rows : List (Address × α)}
    (h : rows.Pairwise (fun a b => a.1 < b.1)) :
    sumRows f (remove k rows) + weight f (find? k rows) = sumRows f rows := by
  induction rows with
  | nil => simp [remove, find?]
  | cons first rest ih =>
    obtain ⟨j, w⟩ := first
    rw [List.pairwise_cons] at h
    have hrest := ih h.2
    by_cases hj : k = j
    · subst hj
      have hnone : find? k rest = none := find?_eq_none h.1
      have hsame : remove k rest = rest := by
        refine List.filter_eq_self.mpr fun row hrow => ?_
        simpa using (Address.ne_of_lt (h.1 row hrow)).symm
      have hskip : remove k ((k, w) :: rest) = rest := by
        simpa [remove] using hsame
      rw [hskip]
      simp only [find?, if_true, weight_some, sumRows]
      omega
    · have hkeep : remove k ((j, w) :: rest) = (j, w) :: remove k rest := by
        simp [remove, Ne.symm hj]
      rw [hkeep]
      simp only [find?, hj, if_false, sumRows]
      omega

/-- Setting a row puts its new weight in place of its old one. -/
theorem sum_insert (f : α → Nat) (t : Table α) (k : Address) (v : α) :
    sum f (t.insert k v) + weight f (t.get? k) = sum f t + f v := sum_place f k v t.ascending

/-- Removing a row takes its weight away. -/
theorem sum_erase (f : α → Nat) (t : Table α) (k : Address) :
    sum f (t.erase k) + weight f (t.get? k) = sum f t := sum_remove f k t.ascending

end Table

end PooledCollateral
