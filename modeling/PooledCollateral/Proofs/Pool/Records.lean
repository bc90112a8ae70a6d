/-
PooledCollateral.Proofs.Pool.Records — a pool and its records.

A snapshot `Records` books when it says the same of the totals, the settings and
every address. A delta of the holders that an operation touched leads from a
snapshot of the books before to one of the books after (`records_fold`), and
from a snapshot of its books a sound pool is built again
(`ofSnapshot_of_tells`): it passes every check on the way, and shows the same books.
The snapshot may list holders who have nothing; there is one that lists none of them
(`Records.unique`).
-/
import PooledCollateral.Pool.Records
import PooledCollateral.Proofs.Pool.Restore
import PooledCollateral.Proofs.Sums

namespace PooledCollateral

open Function

/-- The books of a fresh pool. -/
def Books.fresh (settings : Settings) : Books where
  totals := { collateral := 0, feeReserve := 0, feeDebt := 0, feeCredit := 0, supply := 0 }
  settings := settings
  row := HolderRow.blank

namespace Snapshot

/-- The snapshot says what the books say, and its rows are in order. -/
structure Records (s : Snapshot) (b : Books) : Prop where
  totals : s.totals = b.totals
  settings : s.settings = b.settings
  inOrder : InOrder s.rows
  row : rowAt s.rows = b.row

/-- The snapshot says what the books say; it may list addresses that have nothing. -/
structure Tells (s : Snapshot) (b : Books) : Prop where
  totals : s.totals = b.totals
  settings : s.settings = b.settings
  ascending : Ascending s.rows
  row : rowAt s.rows = b.row

theorem Records.tells {s : Snapshot} {b : Books} (h : s.Records b) : s.Tells b :=
  ⟨h.totals, h.settings, h.inOrder.ascending, h.row⟩

/-- Only one snapshot records given books. -/
theorem Records.unique {s t : Snapshot} {b : Books} (h : s.Records b) (h' : t.Records b) : s = t := by
  have hrows : s.rows = t.rows := h.inOrder.ext h'.inOrder (h.row.trans h'.row.symm)
  have htotals : s.totals = t.totals := h.totals.trans h'.totals.symm
  have hsettings : s.settings = t.settings := h.settings.trans h'.settings.symm
  cases s
  cases t
  simp_all

/-- What a store holds says what the books say; where it holds nothing, they are
those of a fresh pool. -/
def Remembers (initial : Settings) : Option Snapshot → Books → Prop
  | none, b => b = Books.fresh initial
  | some s, b => s.Records b

/-- What is summed over the rows is summed over all addresses. -/
theorem sum_map_eq_sum {rows : List HolderRow} (f : HolderRow → ℕ)
    (hblank : ∀ k, f (HolderRow.blank k) = 0) (h : Ascending rows) :
    (rows.map f).sum = ∑ k, f (rowAt rows k) := by
  have hrows : (rows.map f).sum = Table.sumRows f (keyed rows) := by
    clear h
    induction rows with
    | nil => rfl
    | cons row rows ih => simp [Table.sumRows, ih]
  rw [hrows, Table.sumRows_eq_sum f (ascending_iff.mp h)]
  refine Finset.sum_congr rfl fun k _ => ?_
  unfold rowAt
  cases Table.find? k (keyed rows) <;> simp [hblank]

end Snapshot

namespace Pool

open Snapshot

variable {p q fresh : Pool} {initial : Settings} {holders : List Address}

theorem books_create (h : create initial = .ok fresh) : fresh.books = Books.fresh initial := by
  obtain ⟨-, rfl⟩ := create_ok h
  rfl

theorem create_of_valid (h : initial.Valid) : ∃ fresh, create initial = .ok fresh := by
  have hcheck : initial.check = .ok () := Settings.check_eq_ok_iff.mpr h
  unfold create
  rw [hcheck]
  exact ⟨_, rfl⟩

/-! ## Writing records -/

/-- With the delta of all touched holders, a store goes from what it held before
a change to what it has to hold after. -/
theorem records_fold {held : Option Snapshot} (h : Remembers initial held p.books)
    (hoff : ∀ other, other ∉ holders → q.holderRow other = p.holderRow other) :
    (Snapshot.fold held (q.delta holders)).Records q.books := by
  have hrows : ∀ rows, InOrder rows → rowAt rows = p.holderRow →
      InOrder ((q.delta holders).rows.foldl writeRow rows) ∧
        rowAt ((q.delta holders).rows.foldl writeRow rows) = q.holderRow := by
    intro rows horder hrow
    obtain ⟨horder', hrow'⟩ := rowAt_foldl_writeRow horder (q.delta holders).rows
    refine ⟨horder', ?_⟩
    rw [hrow', hrow]
    unfold delta
    rw [overlay_map fun _ => rfl]
    funext other
    split
    · rfl
    · rename_i hother
      exact (hoff other hother).symm
  cases held with
  | none =>
    have hblank : rowAt [] = p.holderRow := (congrArg Books.row h).symm
    obtain ⟨horder, hrow⟩ := hrows [] inOrder_nil hblank
    exact ⟨rfl, rfl, horder, hrow⟩
  | some s =>
    obtain ⟨horder, hrow⟩ := hrows s.rows h.inOrder h.row
    exact ⟨rfl, rfl, horder, hrow⟩

/-! ## Reading records -/

/-- Rows add up if the sums are amounts. -/
theorem foldlM_add_rows_eq_ok_iff {rows : List HolderRow} {sums total : RowSums}
    (hbalance : sums.balance ≤ Amount.max) (hdebt : sums.debt ≤ Amount.max)
    (hcredit : sums.credit ≤ Amount.max) :
    rows.foldlM RowSums.add sums = .ok total ↔
      total = { balance := sums.balance + (rows.map (·.balance)).sum
                debt := sums.debt + (rows.map (·.feeDebt)).sum
                credit := sums.credit + (rows.map (·.feeCredit)).sum } ∧
        total.balance ≤ Amount.max ∧ total.debt ≤ Amount.max ∧ total.credit ≤ Amount.max := by
  induction rows generalizing sums with
  | nil =>
    constructor
    · intro h
      cases h
      exact ⟨rfl, hbalance, hdebt, hcredit⟩
    · rintro ⟨rfl, -⟩
      rfl
  | cons row rows ih =>
    simp only [List.foldlM_cons, Checked.bind_eq_ok_iff, RowSums.add, Amount.add_eq_ok_iff,
      List.map_cons, List.sum_cons, ← Nat.add_assoc]
    constructor
    · rintro ⟨next, ⟨_, ⟨rfl, hb⟩, _, ⟨rfl, hd⟩, _, ⟨rfl, hc⟩, hreturn⟩, hrows⟩
      cases hreturn
      exact (ih hb hd hc).mp hrows
    · rintro ⟨rfl, hb, hd, hc⟩
      have hb' : sums.balance + row.balance ≤ Amount.max := le_of_add_le_left hb
      have hd' : sums.debt + row.feeDebt ≤ Amount.max := le_of_add_le_left hd
      have hc' : sums.credit + row.feeCredit ≤ Amount.max := le_of_add_le_left hc
      exact ⟨_, ⟨_, ⟨rfl, hb'⟩, _, ⟨rfl, hd'⟩, _, ⟨rfl, hc'⟩, rfl⟩,
        (ih hb' hd' hc').mpr ⟨rfl, hb, hd, hc⟩⟩

/-- The sums of recorded rows are the totals of the pool that they record. -/
theorem sum_rows_of_tells {s : Snapshot} (hp : p.Sound) (h : s.Tells p.books) :
    (s.rows.map (·.balance)).sum = p.shares.supply ∧
      (s.rows.map (·.feeDebt)).sum = p.fees.totalDebt ∧
      (s.rows.map (·.feeCredit)).sum = p.fees.totalCredit := by
  have hrow : rowAt s.rows = p.holderRow := h.row
  have hsum := fun f hblank => sum_map_eq_sum f hblank h.ascending
  rw [hsum (·.balance) fun _ => rfl, hsum (·.feeDebt) fun _ => rfl,
    hsum (·.feeCredit) fun _ => rfl, hrow]
  exact ⟨hp.supply_eq_sum.symm, hp.debt_eq_sum.symm, hp.credit_eq_sum.symm⟩

theorem map_toHolderRow_checkpointRow (rows : List HolderRow) :
    (rows.map checkpointRow).map CheckpointRow.toHolderRow = rows := by
  rw [List.map_map]
  exact List.map_id rows

/-- What a pool shows that has been built from the rows of a snapshot, one written
over the other. -/
theorem books_loaded {s : Snapshot} (h : create s.settings = .ok fresh) :
    (((s.rows.map checkpointRow).foldl putRow fresh).putTotals s.totals).books
      = ⟨s.totals, s.settings, overlay HolderRow.blank s.rows⟩ := by
  have hfresh := books_create h
  have hblank : fresh.holderRow = HolderRow.blank := congrArg Books.row hfresh
  have hkept : fresh.settings = s.settings := congrArg Books.settings hfresh
  have hbooks := books_foldl_putRow fresh (s.rows.map checkpointRow)
  rw [map_toHolderRow_checkpointRow, hblank] at hbooks
  have hrow := congrArg Books.row hbooks
  have hsettings := (congrArg Books.settings hbooks).trans hkept
  exact congrArg₂ (Books.mk s.totals) hsettings hrow

/-- From a snapshot that says what its books say a sound pool is built again. -/
theorem ofSnapshot_of_tells {s : Snapshot} (hp : p.Sound) (h : s.Tells p.books) :
    ∃ r, ofSnapshot s = .ok r ∧ r.books = p.books := by
  obtain ⟨hsupply, hdebt, hcredit⟩ := sum_rows_of_tells hp h
  have hsettings : s.settings = p.settings := h.settings
  obtain ⟨fresh, hfresh⟩ := create_of_valid (hsettings ▸ hp.settings)
  have hsums : s.rows.foldlM RowSums.add { balance := 0, debt := 0, credit := 0 } =
      .ok ⟨p.shares.supply, p.fees.totalDebt, p.fees.totalCredit⟩ := by
    refine (foldlM_add_rows_eq_ok_iff (Nat.zero_le _) (Nat.zero_le _) (Nat.zero_le _)).mpr ?_
    simp only [Nat.zero_add, hsupply, hdebt, hcredit]
    exact ⟨trivial, hp.shares.supply_le, hp.fees.debt_le, hp.fees.credit_le⟩
  have htotals : p.shares.supply = s.totals.supply ∧ p.fees.totalDebt = s.totals.feeDebt ∧
      p.fees.totalCredit = s.totals.feeCredit := by
    rw [h.totals]
    exact ⟨rfl, rfl, rfl⟩
  refine ⟨((s.rows.map checkpointRow).foldl putRow fresh).putTotals s.totals, ?_, ?_⟩
  · unfold ofSnapshot
    rw [hfresh, hsums]
    simp [htotals, require, bind, Except.bind, pure, Except.pure]
  · rw [books_loaded hfresh, overlay_of_ascending h.ascending, h.totals, h.settings]
    exact congrArg (Books.mk p.totals p.settings) h.row

end Pool

end PooledCollateral
