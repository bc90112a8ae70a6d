/-
PooledCollateral.Proofs.Snapshot — what the rows of a snapshot say of every
address, and what writing a row does to them.

Rows are `InOrder` when their addresses strictly ascend and none is empty. Such
rows are read through `rowAt`, which gives an empty row to those who have none.
Writing a row keeps rows in order and changes what is read at one address only,
the empty row included (`rowAt_writeRow`); so after a whole delta each address
has the row last written for it (`rowAt_foldl_writeRow`, with `overlay` for rows
written one over the other).
-/
import PooledCollateral.Proofs.Bisect
import PooledCollateral.Snapshot.Basic
import PooledCollateral.Table.Basic
import Mathlib.Logic.Function.Basic

namespace PooledCollateral

open Function

namespace HolderRow

/-- The row of a holder who has nothing. -/
def blank (k : Address) : HolderRow :=
  { address := k, balance := 0, feeDebt := 0, feeCredit := 0, locks := [] }

theorem isEmpty_iff {row : HolderRow} : row.isEmpty = true ↔ row = blank row.address := by
  obtain ⟨k, balance, debt, credit, locks⟩ := row
  simp [isEmpty, blank, and_assoc]

end HolderRow

theorem Address.order_eq_lt {a b : Address} : a.order b = .lt ↔ a < b := by
  simp [order, Address.lt_def, Nat.compare_eq_lt]

theorem Address.order_eq_gt {a b : Address} : a.order b = .gt ↔ b < a := by
  simp [order, Address.lt_def, Nat.compare_eq_gt]

theorem Address.order_self (a : Address) : a.order a = .eq := by
  simp [order]

namespace Snapshot

variable {rows : List HolderRow} {row : HolderRow} {k : Address}

/-! ## Rows by address -/

/-- The rows, each beside its address. -/
def keyed (rows : List HolderRow) : List (Address × HolderRow) :=
  rows.map fun row => (row.address, row)

@[simp] theorem keyed_nil : keyed [] = [] := rfl

@[simp] theorem keyed_cons : keyed (row :: rows) = (row.address, row) :: keyed rows := rfl

@[simp] theorem keyed_append (l r : List HolderRow) : keyed (l ++ r) = keyed l ++ keyed r :=
  List.map_append

@[simp] theorem mem_keyed {entry : Address × HolderRow} :
    entry ∈ keyed rows ↔ entry.2 ∈ rows ∧ entry.1 = entry.2.address := by
  obtain ⟨k, row⟩ := entry
  simp only [keyed, List.mem_map, Prod.mk.injEq]
  constructor
  · rintro ⟨_, hmem, rfl, rfl⟩
    exact ⟨hmem, rfl⟩
  · rintro ⟨hmem, rfl⟩
    exact ⟨row, hmem, rfl, rfl⟩

/-- Addresses strictly ascend. -/
def Ascending (rows : List HolderRow) : Prop :=
  rows.Pairwise fun a b => a.address < b.address

theorem ascending_iff : Ascending rows ↔ (keyed rows).Pairwise fun a b => a.1 < b.1 := by
  simp [Ascending, keyed, List.pairwise_map]

/-- Behind the first row there is no other of its address. -/
theorem Ascending.find?_rest (h : Ascending (row :: rows)) :
    Table.find? row.address (keyed rows) = none := by
  have hfirst := (List.pairwise_cons.mp h).1
  refine Table.find?_eq_none fun entry hentry => ?_
  obtain ⟨hmem, heq⟩ := mem_keyed.mp hentry
  exact heq ▸ hfirst entry.2 hmem

/-- The row of an address; an empty one if there is none. -/
def rowAt (rows : List HolderRow) (k : Address) : HolderRow :=
  (Table.find? k (keyed rows)).getD (HolderRow.blank k)

/-- Rows in order fall into those before an address, those behind it, and
perhaps its own. -/
theorem Ascending.split (h : Ascending rows) (k : Address) :
    ∃ l r, (∀ other ∈ l, other.address < k) ∧ (∀ other ∈ r, k < other.address) ∧
      (rows = l ++ r ∨ ∃ row, row.address = k ∧ rows = l ++ row :: r) := by
  induction rows with
  | nil => exact ⟨[], [], by simp, by simp, Or.inl rfl⟩
  | cons first rest ih =>
    obtain ⟨hfirst, hrest⟩ := List.pairwise_cons.mp h
    by_cases hlt : first.address < k
    · obtain ⟨l, r, hl, hr, hrows⟩ := ih hrest
      refine ⟨first :: l, r, by simpa [hlt] using hl, hr, ?_⟩
      rcases hrows with rfl | ⟨row, hrow, rfl⟩
      · exact Or.inl rfl
      · exact Or.inr ⟨row, hrow, rfl⟩
    · by_cases heq : first.address = k
      · exact ⟨[], rest, by simp, heq ▸ hfirst, Or.inr ⟨first, heq, rfl⟩⟩
      · have hgt : k < first.address := Address.lt_of_not_lt hlt heq
        refine ⟨[], first :: rest, by simp, ?_, Or.inl rfl⟩
        intro other hother
        rcases List.mem_cons.mp hother with rfl | hother
        · exact hgt
        · exact Address.lt_trans hgt (hfirst other hother)

end Snapshot

namespace Table

variable {α : Type} {k : Address} {v : α} {l r : List (Address × α)}

/-- A row is placed behind all rows whose addresses come before. -/
theorem place_append (hl : ∀ row ∈ l, row.1 < k) : place k v (l ++ r) = l ++ place k v r := by
  induction l with
  | nil => rfl
  | cons first rest ih =>
    obtain ⟨j, w⟩ := first
    have hj : j < k := hl (j, w) (by simp)
    have hback : ¬ k < j := fun h => Address.lt_irrefl _ (Address.lt_trans h hj)
    have hne : k ≠ j := (Address.ne_of_lt hj).symm
    simp [place, hback, hne, ih fun row hrow => hl row (by simp [hrow])]

/-- A row is placed before all rows whose addresses come behind. -/
theorem place_of_lt (hr : ∀ row ∈ r, k < row.1) : place k v r = (k, v) :: r := by
  cases r with
  | nil => rfl
  | cons first rest =>
    have hfirst : k < first.1 := hr first (by simp)
    simp [place, hfirst]

theorem remove_of_ne (h : ∀ row ∈ l, row.1 ≠ k) : remove k l = l := by
  simpa [remove] using h

theorem remove_append : remove k (l ++ r) = remove k l ++ remove k r := by
  simp [remove]

end Table

namespace Snapshot

variable {rows : List HolderRow} {row : HolderRow} {k : Address}

/-! ## Writing a row -/

theorem insertIdx_length_append {α : Type} (l r : List α) (x : α) :
    (l ++ r).insertIdx l.length x = l ++ x :: r := by
  induction l with
  | nil => rfl
  | cons y l ih => simp [List.insertIdx_succ_cons, ih]

/-- Among ascending rows, an empty row takes out the row of its address, and any
other row comes where it belongs. -/
theorem keyed_writeRow (h : Ascending rows) (row : HolderRow) :
    keyed (writeRow rows row) =
      if row.isEmpty then Table.remove row.address (keyed rows)
      else Table.place row.address row (keyed rows) := by
  obtain ⟨l, r, hl, hr, hrows⟩ := h.split row.address
  have hbefore : ∀ other ∈ l, other.address.order row.address = .lt := fun other ho =>
    Address.order_eq_lt.mpr (hl other ho)
  have hbehind : ∀ other ∈ r, other.address.order row.address = .gt := fun other ho =>
    Address.order_eq_gt.mpr (hr other ho)
  have hkeyedl : ∀ entry ∈ keyed l, entry.1 < row.address := by
    intro entry hentry
    obtain ⟨hmem, heq⟩ := mem_keyed.mp hentry
    exact heq ▸ hl entry.2 hmem
  have hkeyedr : ∀ entry ∈ keyed r, row.address < entry.1 := by
    intro entry hentry
    obtain ⟨hmem, heq⟩ := mem_keyed.mp hentry
    exact heq ▸ hr entry.2 hmem
  have hstayl := Table.remove_of_ne fun other ho => Address.ne_of_lt (hkeyedl other ho)
  have hstayr := Table.remove_of_ne fun other ho => (Address.ne_of_lt (hkeyedr other ho)).symm
  rcases hrows with rfl | ⟨old, hold, rfl⟩
  · have hsearch := Bisect.search_missing hbefore hbehind
    rw [keyed_append, Table.place_append hkeyedl, Table.place_of_lt hkeyedr, Table.remove_append,
      hstayl, hstayr]
    unfold writeRow
    rw [hsearch]
    by_cases hempty : row.isEmpty = true
    · simp [hempty]
    · simp [hempty, insertIdx_length_append]
  · have heq : old.address.order row.address = .eq := hold ▸ Address.order_self _
    have hsearch := Bisect.search_found hbefore heq hbehind
    rw [keyed_append, keyed_cons, hold, Table.place_append hkeyedl, Table.remove_append, hstayl]
    unfold writeRow
    rw [hsearch]
    by_cases hempty : row.isEmpty = true
    · have hout : Table.remove row.address ((row.address, old) :: keyed r) = keyed r := by
        simpa [Table.remove] using hstayr
      simp [hempty, hout, List.eraseIdx_append_of_length_le]
    · simp [hempty, Table.place, Address.lt_irrefl]

/-- Addresses ascend, and no row is empty. -/
structure InOrder (rows : List HolderRow) : Prop where
  ascending : Ascending rows
  lively : ∀ row ∈ rows, row.isEmpty = false

theorem inOrder_nil : InOrder [] := ⟨List.Pairwise.nil, by simp⟩

theorem ascending_writeRow (h : Ascending rows) (row : HolderRow) :
    Ascending (writeRow rows row) := by
  rw [ascending_iff, keyed_writeRow h]
  rw [ascending_iff] at h
  split
  · exact h.filter _
  · exact Table.pairwise_place _ _ h

theorem inOrder_writeRow (h : InOrder rows) (row : HolderRow) : InOrder (writeRow rows row) := by
  refine ⟨ascending_writeRow h.ascending row, ?_⟩
  intro other hother
  have hentry : (other.address, other) ∈ keyed (writeRow rows row) := mem_keyed.mpr ⟨hother, rfl⟩
  rw [keyed_writeRow h.ascending] at hentry
  split at hentry
  · exact h.lively other (mem_keyed.mp (List.mem_filter.mp hentry).1).1
  · rename_i hrow
    rcases Table.mem_place hentry with heq | hentry
    · obtain rfl : other = row := congrArg Prod.snd heq
      simpa using hrow
    · exact h.lively other (mem_keyed.mp hentry).1

/-- Writing a row changes what is read at its address, and nowhere else. -/
theorem rowAt_writeRow (h : Ascending rows) (row : HolderRow) :
    rowAt (writeRow rows row) = update (rowAt rows) row.address row := by
  funext k
  unfold rowAt
  rw [keyed_writeRow h]
  by_cases hk : k = row.address
  · subst hk
    split
    · rename_i hempty
      simp [Table.find?_remove, (HolderRow.isEmpty_iff.mp hempty).symm]
    · simp [Table.find?_place]
  · split <;> simp [Table.find?_remove, Table.find?_place, hk]

/-! ## Rows in order -/

theorem find?_eq_find?_keyed (rows : List HolderRow) (k : Address) :
    rows.find? (·.address = k) = Table.find? k (keyed rows) := by
  induction rows with
  | nil => rfl
  | cons first rest ih =>
    by_cases hk : k = first.address
    · simp [Table.find?, hk]
    · have hne : first.address ≠ k := Ne.symm hk
      simp [Table.find?, hk, hne, ih]

/-- Among rows in order, an address has a row just if what is read there is not
empty. -/
theorem InOrder.find?_eq (h : InOrder rows) (k : Address) :
    rows.find? (·.address = k) = (some (rowAt rows k)).filter fun row => !row.isEmpty := by
  rw [find?_eq_find?_keyed]
  unfold rowAt
  cases hfound : Table.find? k (keyed rows) with
  | none => simp [Option.filter_some, HolderRow.isEmpty, HolderRow.blank]
  | some row =>
    have hmem : row ∈ rows := (mem_keyed.mp (Table.mem_of_find? hfound)).1
    simp [Option.filter_some, h.lively row hmem]

/-- Rows in order that read alike are the same rows. -/
theorem InOrder.ext {other : List HolderRow} (h : InOrder rows) (h' : InOrder other)
    (hrow : rowAt rows = rowAt other) : rows = other := by
  have hkeyed : keyed rows = keyed other :=
    Table.rows_eq_of_find? (ascending_iff.mp h.ascending) (ascending_iff.mp h'.ascending)
      fun k => by
        rw [← find?_eq_find?_keyed, ← find?_eq_find?_keyed, h.find?_eq, h'.find?_eq, hrow]
  have hsnd : ∀ rows, (keyed rows).map Prod.snd = rows := fun rows => by
    simp [keyed, Function.comp_def]
  rw [← hsnd rows, hkeyed, hsnd]

/-! ## Writing many rows -/

/-- What is read after rows have been written one over the other. -/
def overlay (f : Address → HolderRow) (rows : List HolderRow) : Address → HolderRow :=
  rows.foldl (fun f row => update f row.address row) f

/-- Each address has the row last written for it, and the others keep theirs. -/
theorem rowAt_foldl_writeRow (h : InOrder rows) (written : List HolderRow) :
    InOrder (written.foldl writeRow rows) ∧
      rowAt (written.foldl writeRow rows) = overlay (rowAt rows) written := by
  induction written generalizing rows with
  | nil => exact ⟨h, rfl⟩
  | cons row written ih =>
    have hstep := ih (inOrder_writeRow h row)
    rwa [rowAt_writeRow h.ascending] at hstep

/-- Rows made by a function of the address overlay what they name. -/
theorem overlay_map {g : Address → HolderRow} (hg : ∀ k, (g k).address = k)
    (f : Address → HolderRow) (holders : List Address) :
    overlay f (holders.map g) = fun k => if k ∈ holders then g k else f k := by
  induction holders generalizing f with
  | nil => rfl
  | cons holder holders ih =>
    have hstep : overlay f ((holder :: holders).map g) =
        overlay (update f holder (g holder)) (holders.map g) := by simp [overlay, hg]
    rw [hstep, ih]
    funext k
    by_cases hk : k = holder
    · simp [hk]
    · simp [hk]

/-- Ascending rows, written over anything, are read as they are. -/
theorem overlay_of_ascending (h : Ascending rows) (f : Address → HolderRow) :
    overlay f rows = fun k => (Table.find? k (keyed rows)).getD (f k) := by
  induction rows generalizing f with
  | nil => rfl
  | cons first rest ih =>
    obtain ⟨-, hrest⟩ := List.pairwise_cons.mp h
    have hstep : overlay f (first :: rest) = overlay (update f first.address first) rest := rfl
    rw [hstep, ih hrest]
    funext k
    by_cases hk : k = first.address
    · simp [hk, h.find?_rest, Table.find?]
    · simp [hk, Table.find?]

end Snapshot

end PooledCollateral
