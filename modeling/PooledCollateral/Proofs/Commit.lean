/-
PooledCollateral.Proofs.Commit — how a commit can end.

Whether a store takes a commit is settled by the next of its answers, whatever the
delta is. A commit that is taken folds the delta into what the store holds, one that
is refused leaves that as it was, and either uses the answer up (`commit_ensures`).

A store is `Steady` if all of its answers are the same. It stays so, and once it has
taken a commit it takes the next one too (`Steady.commit_again`). A store that is not
may take a commit and refuse the one that is to undo it.
-/
import PooledCollateral.Proofs.Action
import PooledCollateral.Store
import Mathlib.Data.Nat.Notation

namespace PooledCollateral

open PooledCollateral.Action

variable {delta : Delta} {failure : Failure}

/-! ## Each kind of store -/

theorem MemoryStore.commit_ensures (store : MemoryStore) (delta : Delta) :
    (commit delta).Ensures store
      (fun _ next => store.refusals 0 = false ∧
        next = { held := some (Snapshot.fold store.held delta)
                 refusals := fun n => store.refusals (n + 1) })
      (fun failure next => store.refusals 0 = true ∧
        failure = .rejected (.storage .commitRejected) ∧
        next = { store with refusals := fun n => store.refusals (n + 1) }) := by
  unfold commit
  simp only [ensures_bind, ensures_get, ensures_set, ensures_lift, ensures_modify]
  refine ⟨fun _ htaken => ⟨require_eq_ok_iff.mp htaken, trivial⟩, fun failure hrefused => ?_⟩
  obtain ⟨hanswer, hfailure⟩ := require_eq_error_iff.mp hrefused
  exact ⟨eq_true_of_ne_false hanswer, hfailure, trivial⟩

/-- A file that cannot be written is left alone, and so is the snapshot kept beside
it. -/
theorem FileStore.commit_ensures (store : FileStore) (delta : Delta) :
    (commit delta).Ensures store
      (fun _ next => store.failures 0 = none ∧
        next = { file := some (Snapshot.Codec.encode (Snapshot.fold store.cached delta))
                 cached := some (Snapshot.fold store.cached delta)
                 failures := fun n => store.failures (n + 1) })
      (fun failure next => (∃ text, store.failures 0 = some text ∧
          failure = .rejected (.storage (.other text))) ∧
        next = { store with failures := fun n => store.failures (n + 1) }) := by
  unfold commit write
  simp only [ensures_bind, ensures_get, ensures_set, ensures_modify]
  cases hanswer : store.failures 0 with
  | none => exact ⟨rfl, rfl⟩
  | some text => exact ⟨⟨text, rfl, rfl⟩, rfl⟩

namespace Store

variable {store next : Store}

/-! ## Either kind -/

/-- Whether a store refuses the commit that comes after so many others. -/
def refuses : Store → ℕ → Bool
  | memory store, n => store.refusals n
  | file store, n => (store.failures n).isSome

/-- The next store has the answers of the first one, but for its first answer, which is
used up. -/
def Follows (store next : Store) : Prop := ∀ n, next.refuses n = store.refuses (n + 1)

/-- A commit ends as the next answer of the store says. -/
theorem commit_ensures (store : Store) (delta : Delta) :
    (commit delta).Ensures store
      (fun _ next => store.refuses 0 = false ∧
        next.load = some (Snapshot.fold store.load delta) ∧ store.Follows next)
      (fun _ next => store.refuses 0 = true ∧ next.load = store.load ∧ store.Follows next) := by
  unfold commit
  rw [ensures_bind, ensures_get]
  cases store with
  | memory store =>
    refine ensures_onPart.mpr ((store.commit_ensures delta).mono ?_ ?_)
    · rintro _ _ ⟨htaken, rfl⟩
      exact ⟨htaken, rfl, fun _ => rfl⟩
    · rintro _ _ ⟨hrefused, -, rfl⟩
      exact ⟨hrefused, rfl, fun _ => rfl⟩
  | file store =>
    refine ensures_onPart.mpr ((store.commit_ensures delta).mono ?_ ?_)
    · rintro _ _ ⟨hwritten, rfl⟩
      exact ⟨Option.isSome_eq_false_iff.mpr (Option.isNone_iff_eq_none.mpr hwritten), rfl,
        fun _ => rfl⟩
    · rintro _ _ ⟨⟨text, hfailed, -⟩, rfl⟩
      exact ⟨Option.isSome_of_eq_some hfailed, rfl, fun _ => rfl⟩

/-- A store takes a commit if its next answer is to do so. -/
theorem commit_of_takes (h : store.refuses 0 = false) (delta : Delta) :
    ∃ next, (commit delta).run store = .ok () next := by
  cases hrun : (commit delta).run store with
  | ok _ next => exact ⟨next, rfl⟩
  | error failure next =>
    have hrefused := ((store.commit_ensures delta).of_error hrun).1
    rw [h] at hrefused
    cases hrefused

/-! ## Steady stores -/

/-- A store answers all commits to come alike: it takes each of them, or none. -/
def Steady (store : Store) : Prop := ∀ n, store.refuses n = store.refuses 0

theorem Steady.follows (h : store.Steady) (hnext : store.Follows next) : next.Steady :=
  fun n => (hnext n).trans ((h (n + 1)).trans ((hnext 0).trans (h 1)).symm)

/-- A steady store that has taken a commit takes the next one. -/
theorem Steady.commit_again (h : store.Steady) (hcommit : (commit delta).run store = .ok () next)
    (again : Delta) : ∃ store', (commit again).run next = .ok () store' := by
  obtain ⟨htaken, -, hfollows⟩ := (store.commit_ensures delta).of_ok hcommit
  exact commit_of_takes ((hfollows 0).trans ((h 1).trans htaken)) again

theorem steady_empty : (memory MemoryStore.empty).Steady := fun _ => rfl

/-! ## What is not written -/

/-- A store holds what another one holds, and is steady if that one is: nothing has
been written in between. -/
structure Unwritten (store next : Store) : Prop where
  load : next.load = store.load
  steady : store.Steady → next.Steady

theorem Unwritten.refl (store : Store) : store.Unwritten store := ⟨rfl, id⟩

theorem unwritten_of_commit_error (h : (commit delta).run store = .error failure next) :
    store.Unwritten next := by
  obtain ⟨-, hload, hfollows⟩ := (store.commit_ensures delta).of_error h
  exact ⟨hload, fun hsteady => hsteady.follows hfollows⟩

end Store

end PooledCollateral
