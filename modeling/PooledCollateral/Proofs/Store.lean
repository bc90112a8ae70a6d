/-
PooledCollateral.Proofs.Store — what a store holds is what was written last.

A store is told of the state of a pool delta by delta, and a file may be opened
again between any two of them. Whatever the order of the rows in a delta, and
whichever addresses come in it twice, the rows held are those of the whole
history written one over the other (`folded_concat`): each address has the row
that was written last for it, and none if that row is empty (`HoldsLast`).

A store in memory that refuses nothing never does anything else (`run_memory`). A
store in a file that can always be written holds the same (`run_file`), because what
it has written is read back as it was, as long as everything in it fits its width. So
the two cannot be told apart by what they hold (`stores_hold_last_written`).
-/
import PooledCollateral.Proofs.Snapshot
import PooledCollateral.Proofs.Snapshot.Codec
import Mathlib.Data.List.Induction

namespace PooledCollateral

open Snapshot Function

/-! ## Histories -/

/-- The numbers of a delta fit their widths. -/
structure Delta.Fits (delta : Delta) : Prop where
  totals : delta.totals.Fits
  settings : delta.settings.Fits
  rows : ∀ row ∈ delta.rows, row.Fits

/-- The row that was written last for an address. -/
def lastRow (deltas : List Delta) (k : Address) : Option HolderRow :=
  ((deltas.flatMap (·.rows)).filter (·.address = k)).getLast?

/-- What is held is what was written last. Nothing is held before anything is
written; then the totals and the settings are those of the last delta, addresses
ascend, no row is empty, and the row of each address is the last one written for
it, unless that one is empty. -/
inductive HoldsLast : List Delta → Option Snapshot → Prop
  | nothing : HoldsLast [] none
  | written (earlier : List Delta) (last : Delta) (s : Snapshot)
      (totals : s.totals = last.totals) (settings : s.settings = last.settings)
      (ascending : s.rows.Pairwise fun a b => a.address < b.address)
      (lively : ∀ row ∈ s.rows, row.isEmpty = false)
      (row : ∀ k, s.rows.find? (·.address = k) =
        (lastRow (earlier ++ [last]) k).filter fun row => !row.isEmpty) :
      HoldsLast (earlier ++ [last]) (some s)

namespace Snapshot

variable {rows written : List HolderRow} {row : HolderRow}

/-! ## Rows of a history -/

/-- By induction on the rows from the back: of rows written one over the other,
the last one of an address counts. -/
theorem overlay_eq_getLast? (f : Address → HolderRow) (rows : List HolderRow) (k : Address) :
    overlay f rows k = ((rows.filter (·.address = k)).getLast?).getD (f k) := by
  induction rows using List.reverseRecOn with
  | nil => rfl
  | append_singleton rows row ih =>
    have hstep : overlay f (rows ++ [row]) = update (overlay f rows) row.address row := by
      simp [overlay]
    rw [hstep, List.filter_append]
    by_cases hk : k = row.address
    · subst hk
      simp
    · have hne : row.address ≠ k := Ne.symm hk
      simp [hk, hne, ih]

/-! ## Counting rows -/

theorem mem_writeRow {other : HolderRow} (h : other ∈ writeRow rows row) :
    other ∈ rows ∨ other = row := by
  unfold writeRow at h
  split at h
  · split at h
    · exact Or.inl (List.mem_of_mem_eraseIdx h)
    · exact List.mem_or_eq_of_mem_set h
  · rename_i i _
    split at h
    · exact Or.inl h
    · by_cases hi : i ≤ rows.length
      · exact ((List.mem_insertIdx hi).mp h).symm
      · rw [List.insertIdx_of_length_lt (Nat.lt_of_not_le hi)] at h
        exact Or.inl h

theorem length_writeRow_le (rows : List HolderRow) (row : HolderRow) :
    (writeRow rows row).length ≤ rows.length + 1 := by
  unfold writeRow
  split
  · split
    · exact Nat.le_succ_of_le (List.length_eraseIdx_le _ _)
    · simp
  · split
    · exact Nat.le_succ _
    · exact List.length_insertIdx_le_succ

/-- Nothing is held that was not written, and no more rows than were. -/
theorem foldl_writeRow_bounds (rows written : List HolderRow) :
    (∀ row ∈ written.foldl writeRow rows, row ∈ rows ∨ row ∈ written) ∧
      (written.foldl writeRow rows).length ≤ rows.length + written.length := by
  induction written generalizing rows with
  | nil => simp
  | cons first written ih =>
    obtain ⟨hmem, hlength⟩ := ih (writeRow rows first)
    constructor
    · intro row hrow
      rcases hmem row hrow with hrow | hrow
      · rcases mem_writeRow hrow with hrow | rfl
        · exact Or.inl hrow
        · exact Or.inr List.mem_cons_self
      · exact Or.inr (List.mem_cons_of_mem _ hrow)
    · have hfirst := length_writeRow_le rows first
      simp only [List.foldl_cons, List.length_cons]
      omega

/-! ## Folding a history -/

/-- What a history of deltas makes of nothing. -/
def folded (deltas : List Delta) : Option Snapshot :=
  deltas.foldl (fun held delta => some (fold held delta)) none

theorem folded_concat_eq (deltas : List Delta) (delta : Delta) :
    folded (deltas ++ [delta]) = some (fold (folded deltas) delta) := by
  simp [folded]

/-- The rows of a history are written one over the other, from its first delta to
its last. -/
theorem folded_concat (deltas : List Delta) (last : Delta) :
    folded (deltas ++ [last]) = some
      { totals := last.totals
        settings := last.settings
        rows := ((deltas ++ [last]).flatMap (·.rows)).foldl writeRow [] } := by
  induction deltas using List.reverseRecOn generalizing last with
  | nil => simp [folded, fold, ofDelta, apply]
  | append_singleton deltas delta ih =>
    rw [folded_concat_eq, ih delta]
    simp [fold, apply]

theorem holdsLast_folded (deltas : List Delta) : HoldsLast deltas (folded deltas) := by
  rcases List.eq_nil_or_concat deltas with rfl | ⟨earlier, last, rfl⟩
  · exact .nothing
  · rw [List.concat_eq_append, folded_concat]
    obtain ⟨horder, hrow⟩ :=
      rowAt_foldl_writeRow inOrder_nil ((earlier ++ [last]).flatMap (·.rows))
    refine .written earlier last _ rfl rfl horder.ascending horder.lively fun k => ?_
    rw [horder.find?_eq, hrow, overlay_eq_getLast?]
    unfold lastRow
    cases (((earlier ++ [last]).flatMap (·.rows)).filter (·.address = k)).getLast? with
    | none => simp [rowAt, HolderRow.isEmpty, HolderRow.blank, Table.find?]
    | some row => rfl

/-- What is held fits if what was written does and the rows can be counted. -/
theorem fits_of_folded {deltas : List Delta} {s : Snapshot} (h : folded deltas = some s)
    (hfits : ∀ delta ∈ deltas, delta.Fits) (hroom : s.rows.length < Bytes.count 8) : s.Fits := by
  rcases List.eq_nil_or_concat deltas with rfl | ⟨earlier, last, rfl⟩
  · cases h
  · rw [List.concat_eq_append] at h hfits
    rw [folded_concat] at h
    cases h
    have hlast := hfits last (by simp)
    refine ⟨hlast.totals, hlast.settings, hroom, fun row hrow => ?_⟩
    rcases (foldl_writeRow_bounds _ _).1 row hrow with hrow | hrow
    · cases hrow
    · obtain ⟨delta, hdelta, hrow⟩ := List.mem_flatMap.mp hrow
      exact (hfits delta hdelta).rows row hrow

/-- No more rows are held than were written. -/
theorem length_folded_le {deltas : List Delta} {s : Snapshot} (h : folded deltas = some s) :
    s.rows.length ≤ (deltas.flatMap (·.rows)).length := by
  rcases List.eq_nil_or_concat deltas with rfl | ⟨earlier, last, rfl⟩
  · cases h
  · rw [List.concat_eq_append, folded_concat] at h
    cases h
    simpa using (foldl_writeRow_bounds [] ((earlier ++ [last]).flatMap (·.rows))).2

end Snapshot

namespace Store

/-! ## Runs of a store -/

/-- What a store goes through. -/
inductive Step
  /-- A delta is committed. -/
  | commit (delta : Delta)
  /-- The store is closed and opened again. -/
  | reopen

/-- The store after a step, if the step succeeds. -/
def step (store : Store) : Step → Checked Store
  | .commit delta => (do commit delta; get : Action Store Store).outcome store
  | .reopen => store.reopen

/-- The store after some steps. -/
def run (store : Store) (steps : List Step) : Checked Store := steps.foldlM step store

/-- The deltas that are committed on the way. -/
def committed (steps : List Step) : List Delta :=
  steps.filterMap fun
    | .commit delta => some delta
    | .reopen => none

theorem run_concat (store : Store) (steps : List Step) (last : Step) :
    run store (steps ++ [last]) = run store steps >>= fun s => s.step last := by
  simp [run, List.foldlM_append]

theorem committed_concat_commit (steps : List Step) (delta : Delta) :
    committed (steps ++ [.commit delta]) = committed steps ++ [delta] := by
  simp [committed]

theorem committed_concat_reopen (steps : List Step) :
    committed (steps ++ [.reopen]) = committed steps := by
  simp [committed]

/-- A store in memory folds the deltas, and nothing else happens to it. -/
theorem run_memory (steps : List Step) :
    run (.memory MemoryStore.empty) steps =
      .ok (.memory { held := folded (committed steps) }) := by
  induction steps using List.reverseRecOn with
  | nil => rfl
  | append_singleton steps last ih =>
    rw [run_concat, ih]
    cases last with
    | commit delta =>
      rw [committed_concat_commit, folded_concat_eq]
      rfl
    | reopen =>
      rw [committed_concat_reopen]
      rfl

/-- A file that holds the byte form of what fits, or is not there, is opened as
what was written to it. -/
theorem ofFile_map_encode {held : Option Snapshot} (hfits : ∀ s, held = some s → s.Fits) :
    FileStore.ofFile (held.map Codec.encode) =
      .ok { file := held.map Codec.encode, cached := held } := by
  cases held with
  | none => rfl
  | some s =>
    have hdecode : Codec.decode? (Codec.encode s) = some s :=
      Codec.decode?_eq_some_iff.mpr ⟨hfits s rfl, List.prefix_rfl⟩
    exact Codec.ofFile_eq_ok_iff.mpr hdecode

/-- No more rows are ever held than are written on the way. -/
theorem length_le_of_run_memory {steps front : List Step} (hfront : front <+: steps) {m : Store}
    {s : Snapshot} (hrun : run (.memory MemoryStore.empty) front = .ok m) (hload : m.load = some s) :
    s.rows.length ≤ ((committed steps).flatMap (·.rows)).length := by
  obtain ⟨back, rfl⟩ := hfront
  rw [run_memory] at hrun
  cases hrun
  have hheld := length_folded_le hload
  simp only [committed, List.filterMap_append, List.flatMap_append, List.length_append] at hheld ⊢
  omega

/-- A store in a file holds what a store in memory does, and its file the byte
form of that, however often it is opened again. -/
theorem run_file (steps : List Step)
    (hfits : ∀ front, front <+: steps → ∀ s, folded (committed front) = some s → s.Fits) :
    run (.file { file := none, cached := none }) steps =
      .ok (.file { file := (folded (committed steps)).map Codec.encode
                   cached := folded (committed steps) }) := by
  induction steps using List.reverseRecOn with
  | nil => rfl
  | append_singleton steps last ih =>
    have hfront : steps <+: steps ++ [last] := List.prefix_append steps [last]
    rw [run_concat, ih fun front h => hfits front (h.trans hfront)]
    cases last with
    | commit delta =>
      rw [committed_concat_commit, folded_concat_eq]
      rfl
    | reopen =>
      rw [committed_concat_reopen]
      have hopen := ofFile_map_encode (hfits steps hfront)
      simp only [bind, Except.bind, step, reopen, hopen]
      rfl

/-- A store in memory and a store in a file, both empty at first, go through the
same steps: deltas with rows in any order, of any addresses and as often as may
be, are committed, and between any two of them the stores are closed and opened
again. The one is not told to refuse anything, and the file of the other can always
be written. Neither fails, they hold the same, and that is what was written last.
The numbers in the deltas fit their widths, and at no point are more rows held than
can be counted. -/
theorem stores_hold_last_written (steps : List Step)
    (hfits : ∀ delta ∈ committed steps, delta.Fits)
    (hroom : ∀ front, front <+: steps → ∀ m s, run (.memory MemoryStore.empty) front = .ok m →
      m.load = some s → s.rows.length < Bytes.count 8) :
    ∃ file m f, FileStore.ofFile none = .ok file ∧
      run (.memory MemoryStore.empty) steps = .ok m ∧ run (.file file) steps = .ok f ∧
      f.load = m.load ∧ HoldsLast (committed steps) m.load := by
  have hfile := run_file steps fun front hfront s hs => by
    have hsub : committed front ⊆ committed steps := (hfront.sublist.filterMap _).subset
    have hcount := hroom front hfront _ s (run_memory front) hs
    exact fits_of_folded hs (fun delta hdelta => hfits delta (hsub hdelta)) hcount
  exact ⟨_, _, _, rfl, run_memory steps, hfile, rfl, holdsLast_folded _⟩

/-! ## A history -/

/-- A row with a balance and nothing else. -/
def balanceRow (k balance : Nat) (h : k < Bytes.count 20 := by decide) : HolderRow :=
  { HolderRow.blank ⟨k, h⟩ with balance }

theorem fits_balanceRow {k balance : Nat} (h : k < Bytes.count 20)
    (hbalance : balance < Bytes.count 16) : (balanceRow k balance h).Fits where
  balance := hbalance
  feeDebt := by simp [balanceRow, HolderRow.blank, Bytes.count]
  feeCredit := by simp [balanceRow, HolderRow.blank, Bytes.count]
  locks := by simp [balanceRow, HolderRow.blank, Bytes.count]

/-- The totals of all deltas below. -/
def steadyTotals : Totals :=
  { collateral := 9, feeReserve := 1, feeDebt := 0, feeCredit := 0, supply := 13 }

/-- The settings of all deltas below. -/
def steadySettings : Settings where
  exitRatio := 12000
  lockDuration := 0
  minEntry := 1
  minSupplyAfterExit := 1
  minCollateralAfterExit := 1

/-- A delta of some rows. -/
def deltaOf (rows : List HolderRow) : Delta :=
  { totals := steadyTotals, settings := steadySettings, rows }

theorem fits_deltaOf {rows : List HolderRow} (h : ∀ row ∈ rows, row.Fits) :
    (deltaOf rows).Fits where
  totals := show steadyTotals.Fits by constructor <;> decide
  settings := show steadySettings.Fits by constructor <;> decide
  rows := h

/-- Two deltas with rows out of order, one address twice in each; the first row
of all is written over at once, and the second is taken out later. -/
def rewriting : List Step :=
  [.commit (deltaOf [balanceRow 2 5, balanceRow 1 3, balanceRow 2 7]), .reopen,
    .commit (deltaOf [balanceRow 3 4, balanceRow 1 0, balanceRow 3 6]), .reopen]

/-- Both stores hold the rows written last of the second and the third address; the
first one has been taken out again. -/
theorem rewriting_held :
    ∃ file m f, FileStore.ofFile none = .ok file ∧
      run (.memory MemoryStore.empty) rewriting = .ok m ∧ run (.file file) rewriting = .ok f ∧
      f.load = m.load ∧ HoldsLast (committed rewriting) m.load ∧
      m.load.map (·.rows) = some [balanceRow 2 7, balanceRow 3 6] := by
  have hfits : ∀ delta ∈ committed rewriting, delta.Fits := by
    simp only [committed, rewriting, List.filterMap_cons, List.filterMap_nil, List.mem_cons,
      List.not_mem_nil, or_false, forall_eq_or_imp, forall_eq]
    constructor <;>
      exact fits_deltaOf (by simp [fits_balanceRow, Bytes.count])
  obtain ⟨file, m, f, hfile, hm, hf, hload, hlast⟩ :=
    stores_hold_last_written rewriting hfits fun front hfront m s hrun hload =>
      Nat.lt_of_le_of_lt (length_le_of_run_memory hfront hrun hload) (by decide)
  refine ⟨file, m, f, hfile, hm, hf, hload, hlast, ?_⟩
  rw [run_memory] at hm
  cases hm
  decide +kernel

end Store

end PooledCollateral
