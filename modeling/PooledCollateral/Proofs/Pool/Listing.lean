/-
PooledCollateral.Proofs.Pool.Listing — whom the snapshot of a pool lists.

A snapshot lists those who have something, and those whose account is hollow
(`mem_holders_iff_hollow`), by ascending address. What it says is right all the
same (`tells_snapshot`), and with the rows of nothing left out (`Snapshot.live`) it
is the snapshot that a store keeps (`records_live`). A pool that is built from
records has no hollow account, so its own snapshot is the live part of the one that
it was built from (`snapshot_of_ofSnapshot`).
-/
import PooledCollateral.Proofs.Pool.Audit
import PooledCollateral.Proofs.Pool.Hollowing
import PooledCollateral.Proofs.Pool.Records

namespace PooledCollateral

namespace Snapshot

variable {s : Snapshot} {b : Books} {rows : List HolderRow}

/-- The snapshot without the rows in which there is nothing. -/
def live (s : Snapshot) : Snapshot := { s with rows := s.rows.filter fun row => !row.isEmpty }

theorem inOrder_filter (h : Ascending rows) : InOrder (rows.filter fun row => !row.isEmpty) := by
  constructor
  · exact List.Pairwise.filter _ h
  · intro row hrow
    simpa using (List.mem_filter.mp hrow).2

/-- By induction on the rows: behind the row of an address there is no other of it,
so one that is left out is not found any more. -/
theorem find?_filter (h : Ascending rows) (kept : HolderRow → Bool) (k : Address) :
    Table.find? k (keyed (rows.filter kept)) = (Table.find? k (keyed rows)).filter kept := by
  induction rows with
  | nil => rfl
  | cons first rest ih =>
    have hrest : Ascending rest := (List.pairwise_cons.mp h).2
    by_cases hk : k = first.address
    · subst hk
      cases hkept : kept first <;>
        simp [hkept, Table.find?, ih hrest, h.find?_rest, Option.filter_some]
    · cases hkept : kept first <;> simp [hkept, Table.find?, hk, ih hrest]

/-- Where there is no row an empty one is read, so leaving out empty rows changes
nothing that is read. -/
theorem rowAt_filter (h : Ascending rows) :
    rowAt (rows.filter fun row => !row.isEmpty) = rowAt rows := by
  funext k
  unfold rowAt
  rw [find?_filter h]
  cases hfound : Table.find? k (keyed rows) with
  | none => rfl
  | some row =>
    cases hempty : row.isEmpty with
    | false => simp [Option.filter_some, hempty]
    | true =>
      obtain ⟨-, hk⟩ := mem_keyed.mp (Table.mem_of_find? hfound)
      have hblank : row = HolderRow.blank k := by
        have hrow := HolderRow.isEmpty_iff.mp hempty
        rwa [← hk] at hrow
      simp [Option.filter_some, hempty, ← hblank]

theorem Tells.records_live (h : s.Tells b) : s.live.Records b where
  totals := h.totals
  settings := h.settings
  inOrder := inOrder_filter h.ascending
  row := (rowAt_filter h.ascending).trans h.row

end Snapshot

namespace Pool

open ShareBook Snapshot

variable {p q r : Pool} {k : Address}

/-! ## Who is listed -/

theorem ascending_snapshot (p : Pool) : Ascending p.snapshot.rows := by
  have hkeys : p.holders.Pairwise (· < ·) := by
    unfold holders Table.keys
    exact List.pairwise_map.mpr (Table.ascending _)
  exact List.pairwise_map.mpr hkeys

theorem mem_map_address_snapshot : k ∈ p.snapshot.rows.map (·.address) ↔ k ∈ p.holders := by
  simp [snapshot, holderRow]

/-- A holder is listed who has something, and whoever has a hollow account. -/
theorem mem_holders_iff_hollow :
    k ∈ p.holders ↔ (p.holderRow k).isEmpty = false ∨ p.shares.Hollow k := by
  rw [mem_holders_iff, holderRow_eq]
  unfold HolderRow.isEmpty debtOf creditOf Hollow accountOf
  cases haccount : p.shares.accounts.get? k with
  | none =>
    simp [Account.empty, LockQueue.empty]
    tauto
  | some a =>
    obtain ⟨balance, ⟨locks⟩⟩ := a
    simp [Account.empty, LockQueue.empty]
    tauto

/-- What a snapshot says is what the books say. -/
theorem tells_snapshot (p : Pool) : p.snapshot.Tells p.books where
  totals := rfl
  settings := rfl
  ascending := ascending_snapshot p
  row := by
    funext k
    unfold rowAt
    cases hfound : Table.find? k (keyed p.snapshot.rows) with
    | some row =>
      obtain ⟨hrow, hk⟩ := mem_keyed.mp (Table.mem_of_find? hfound)
      obtain ⟨holder, -, hholder⟩ := List.mem_map.mp hrow
      have haddress : holder = k := (congrArg HolderRow.address hholder).trans hk.symm
      subst haddress
      exact hholder.symm
    | none =>
      have hnot : k ∉ p.holders := fun hmem => by
        have hentry : (k, p.holderRow k) ∈ keyed p.snapshot.rows :=
          mem_keyed.mpr ⟨List.mem_map_of_mem hmem, rfl⟩
        rw [Table.find?_of_mem (ascending_iff.mp (ascending_snapshot p)) hentry] at hfound
        cases hfound
      rw [mem_holders_iff_hollow, not_or, Bool.not_eq_false] at hnot
      exact (HolderRow.isEmpty_iff.mp hnot.1).symm

/-- Where no account is hollow, every row that is listed has something in it. -/
theorem live_snapshot (h : ∀ k, ¬ p.shares.Hollow k) : p.snapshot.live = p.snapshot := by
  have hrows : p.snapshot.rows.filter (fun row => !row.isEmpty) = p.snapshot.rows := by
    refine List.filter_eq_self.mpr fun row hrow => ?_
    obtain ⟨holder, hholder, rfl⟩ := List.mem_map.mp hrow
    rcases mem_holders_iff_hollow.mp hholder with hlive | hhollow
    · simp [hlive]
    · exact absurd hhollow (h holder)
  unfold live
  rw [hrows]

/-! ## Reading a snapshot back -/

theorem not_hollow_foldl_putRow (rows : List CheckpointRow) (h : ¬ p.shares.Hollow k) :
    ¬ (rows.foldl putRow p).shares.Hollow k := by
  induction rows generalizing p with
  | nil => exact h
  | cons row rows ih =>
    refine ih (fun hhollow => ?_)
    have hsettled : (settle p.shares.accounts row.holder (row.account.getD Account.empty)).get? k =
        some Account.empty := hhollow
    by_cases hk : k = row.holder
    · exact get?_settle_ne _ _ _ (hk ▸ hsettled)
    · rw [get?_settle_of_ne _ _ hk] at hsettled
      exact h hsettled

/-- A pool that is built from records has no hollow account. -/
theorem not_hollow_ofSnapshot {s : Snapshot} (h : ofSnapshot s = .ok r) (k : Address) :
    ¬ r.shares.Hollow k := by
  simp only [ofSnapshot, Checked.bind_eq_ok_iff] at h
  obtain ⟨fresh, hfresh, _, -, _, -, hr⟩ := h
  cases hr
  obtain ⟨-, rfl⟩ := create_ok hfresh
  exact not_hollow_foldl_putRow _ (not_hollow_empty k)

/-- From the snapshot of a sound pool one is built whose snapshot is the live part
of the first. -/
theorem snapshot_of_ofSnapshot (hp : p.Sound) :
    ∃ r, ofSnapshot p.snapshot = .ok r ∧ r.snapshot = p.snapshot.live := by
  obtain ⟨r, hr, hbooks⟩ := ofSnapshot_of_tells hp (tells_snapshot p)
  have hrecords : r.snapshot.live.Records p.books := hbooks ▸ (tells_snapshot r).records_live
  refine ⟨r, hr, ?_⟩
  rw [← live_snapshot (not_hollow_ofSnapshot hr)]
  exact hrecords.unique (tells_snapshot p).records_live

end Pool

end PooledCollateral
