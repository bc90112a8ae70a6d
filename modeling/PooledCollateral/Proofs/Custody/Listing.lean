/-
PooledCollateral.Proofs.Custody.Listing — whom snapshots list, and what the store
keeps of them.

A snapshot lists everybody who has something, and besides those whom a clearing of
locks has left with an account and nothing in it. The store drops such rows, and so
does a pool that is built from the snapshot. Every operation that succeeds commits,
save for clearings (`perform_commits`); so from then on a store that answers all
commits of one call alike holds the live part of the pool's snapshot
(`Durable.load_eq`), and the whole of it as long as no row is empty
(`snapshots_list_live_and_hollowed`).
-/
import PooledCollateral.Proofs.Custody.Restart
import PooledCollateral.Proofs.Pool.Listing

namespace PooledCollateral.Custody

open PooledCollateral.Action

variable {initial settings : Settings} {c c' : Custody} {call : Call} {α β : Type}

/-! ## Operations that commit -/

/-- A success leaves something in the store. -/
def Commits (act : Action Custody α) : Prop :=
  ∀ c, act.Ensures c (fun _ c' => c'.store.load ≠ none) fun _ _ => True

/-- The store holds what it held. -/
def SameStore (c c' : Custody) : Prop := c'.store = c.store

instance : IsPreorder Custody SameStore where
  refl _ := rfl
  trans _ _ _ h h' := h'.trans h

theorem commits_transact (touched : List Address) (change : Action Pool α)
    (deal : α → Action Errand β) : Commits (transact touched change deal) := by
  intro c
  refine ensures_transact_stages (fun _ _ _ => trivial) (fun _ _ _ _ _ _ => trivial)
    fun a q store _ hcommit => ?_
  obtain ⟨-, hload, -⟩ := (c.store.commit_ensures _).of_ok hcommit
  refine ensures_of_forall (fun _ _ hnone => ?_) fun _ _ => trivial
  cases hload.symm.trans hnone

/-- Whatever comes before, it is enough that the rest commits. -/
theorem commits_bind {x : Action Custody β} {f : β → Action Custody α}
    (hf : ∀ b, Commits (f b)) : Commits (x >>= f) := fun _ =>
  ensures_bind.mpr (ensures_of_forall (fun b c' => hf b c') fun _ _ => trivial)

theorem Commits.bind {x : Action Custody β} {f : β → Action Custody α} (hx : Commits x)
    (hf : ∀ b, Always SameStore (f b)) : Commits (x >>= f) := by
  intro c
  rw [ensures_bind]
  refine (hx c).mono (fun b c' hload => ?_) fun _ _ _ => trivial
  refine (hf b c').mono (fun _ c'' hsame => ?_) fun _ _ _ => trivial
  unfold SameStore at hsame
  rwa [hsame]

theorem Commits.concluded {kind : OperationKind} {act : Action Custody (α × List Event)}
    (h : Commits act) : Commits (concluded kind act) := fun c =>
  ensures_concluded ((h c).mono (fun _ _ hload _ => hload) fun _ _ _ _ => trivial)

theorem Commits.timed {kind : OperationKind} {act : Action Custody α} (h : Commits act) :
    Commits (timed kind act) := commits_bind fun _ => h

theorem enter_commits (caller : Address) (collateral : ℕ) : Commits (enter caller collateral) := by
  apply Commits.timed
  apply Commits.concluded
  apply commits_bind
  intro c
  have hentry : ∀ price : Option Price, Commits (transact [caller] (do
        let receipt ← Pool.enter caller collateral price c.now
        c.parties.requireAllowance .collateral caller collateral
        return receipt)
      fun _ => Errand.pull .collateral caller collateral) := fun price => commits_transact _ _ _
  split
  · exact commits_bind fun price => (hentry price).bind fun _ => always_pure _
  · exact commits_bind fun price => (hentry price).bind fun _ => always_pure _

theorem exit_commits (caller : Address) (shares : ℕ) (recipient : Option Address) :
    Commits (exit caller shares recipient) := by
  apply Commits.timed
  apply Commits.concluded
  apply commits_bind
  intro c
  apply commits_bind
  intro backing
  exact (commits_transact _ _ _).bind fun _ => always_pure _

theorem selfCloseExit_commits (caller : Address) (request : SelfCloseRequest) :
    Commits (selfCloseExit caller request) := by
  apply Commits.timed
  apply Commits.concluded
  apply commits_bind
  intro c
  apply commits_bind
  intro backing
  apply (commits_transact _ _ _).bind
  intro _
  exact Always.bind (fun _ => ensures_modify.mpr rfl) fun _ => always_pure _

theorem withdrawFees_commits (caller : Address) (amount : ℕ) (recipient : Option Address) :
    Commits (withdrawFees caller amount recipient) := by
  apply Commits.timed
  apply Commits.concluded
  exact (commits_transact _ _ _).bind fun _ => always_pure _

theorem payFeeDebt_commits (caller : Address) (amount : ℕ) :
    Commits (payFeeDebt caller amount) := by
  apply Commits.timed
  apply Commits.concluded
  apply commits_bind
  intro c
  exact (commits_transact _ _ _).bind fun _ => always_pure _

theorem transfer_commits (caller receiver : Address) (amount : ℕ) :
    Commits (transfer caller receiver amount) := by
  apply Commits.timed
  apply Commits.concluded
  apply commits_bind
  intro c
  exact (commits_transact _ _ _).bind fun _ => always_pure _

theorem payout_commits (caller holder recipient : Address) (collateral shares : ℕ) :
    Commits (payout caller holder recipient collateral shares) := by
  apply Commits.timed
  apply Commits.concluded
  apply commits_bind
  intro c
  apply commits_bind
  intro _
  exact (commits_transact _ _ _).bind fun _ => always_pure _

theorem administer_commits (kind : OperationKind) (caller : Address) (change : Action Pool Unit)
    (event : Event) : Commits (administer kind caller change event) := by
  apply Commits.concluded
  apply commits_bind
  intro c
  apply commits_bind
  intro _
  exact (commits_transact _ _ _).bind fun _ => always_pure _

/-- Every call but a clearing commits when it succeeds. -/
theorem perform_commits (hcall : ∀ holder limit, call ≠ .cleanup holder limit) :
    Commits (perform call) := by
  cases call with
  | enter => exact (enter_commits _ _).bind fun _ => always_pure _
  | exit => exact (exit_commits _ _ _).bind fun _ => always_pure _
  | selfCloseExit => exact (selfCloseExit_commits _ _).bind fun _ => always_pure _
  | withdrawFees => exact (withdrawFees_commits _ _ _).bind fun _ => always_pure _
  | payFeeDebt => exact (payFeeDebt_commits _ _).bind fun _ => always_pure _
  | transfer => exact (transfer_commits _ _ _).bind fun _ => always_pure _
  | cleanup holder limit => exact absurd rfl (hcall holder limit)
  | depositFees => exact (administer_commits _ _ _ _).bind fun _ => always_pure _
  | receiveCollateral => exact (administer_commits _ _ _ _).bind fun _ => always_pure _
  | payout => exact (payout_commits _ _ _ _ _).bind fun _ => always_pure _
  | updateSettings => exact (administer_commits _ _ _ _).bind fun _ => always_pure _

/-! ## What the store holds -/

/-- The store of a durable custody holds the live part of the pool's snapshot, or
nothing while the pool is fresh. -/
theorem Durable.load_eq (h : c.Durable initial) :
    c.store.load = some c.pool.snapshot.live ∨
      (c.store.load = none ∧ c.pool.books = Books.fresh initial) := by
  have hremembers := h.remembers
  cases hload : c.store.load with
  | none =>
    rw [hload] at hremembers
    exact Or.inr ⟨rfl, hremembers⟩
  | some s =>
    rw [hload] at hremembers
    have hlive := (Pool.tells_snapshot c.pool).records_live
    exact Or.inl (congrArg some (Snapshot.Records.unique hremembers hlive))

/-- After a success the store holds the live part of the pool's snapshot; only a
clearing may come before anything has been committed, and finds a fresh pool. -/
theorem Durable.load_of_success (h : c.Durable initial) (hok : (perform call).failure? c = none) :
    ((perform call).stateAfter c).store.load =
        some ((perform call).stateAfter c).pool.snapshot.live ∨
      (((perform call).stateAfter c).store.load = none ∧
        ((perform call).stateAfter c).pool.books = Books.fresh initial ∧
        ∃ holder limit, call = .cleanup holder limit) := by
  have hdurable : ((perform call).stateAfter c).Durable initial :=
    (perform_keeps call c).stateAfter h
  rcases hdurable.load_eq with hlive | ⟨hnone, hfresh⟩
  · exact Or.inl hlive
  · by_cases hclearing : ∃ holder limit, call = .cleanup holder limit
    · exact Or.inr ⟨hnone, hfresh, hclearing⟩
    · have hcall : ∀ holder limit, call ≠ .cleanup holder limit := fun holder limit heq =>
        hclearing ⟨holder, limit, heq⟩
      obtain ⟨reply, hrun⟩ := run_of_success hok
      exact absurd hnone ((perform_commits hcall c).of_ok hrun)

/-- After any run of calls on a fresh pool the snapshot lists addresses in strictly
ascending order: those whose rows are not empty, and those whom a clearing of locks
has left with an account and nothing in it. A pool can be built from it, whose own
snapshot is the live part of it. And at any point of a run of a custody over an
empty store that answers all commits of one call alike, after a call that succeeds
the store holds the live part of the snapshot of the pool, or nothing yet if the call
was a clearing and the pool is still as it was created. -/
theorem snapshots_list_live_and_hollowed {fresh : Pool}
    (hfresh : Pool.create settings = .ok fresh) :
    (∀ calls : List Pool.Call,
      let p := Pool.after fresh calls
      (p.snapshot.rows.Pairwise fun a b => a.address < b.address) ∧
        (∀ k, k ∈ p.snapshot.rows.map (·.address) ↔
          (p.holderRow k).isEmpty = false ∨ Pool.Hollowed fresh k calls) ∧
        ∃ r, Pool.ofSnapshot p.snapshot = .ok r ∧ r.snapshot = p.snapshot.live) ∧
      ∀ (parties : Parties) (store : Store) (now : ℕ) (c₀ c : Custody) (call : Call),
        store.load = none → store.Steady → start parties store now settings = .ok c₀ →
        Relation.ReflTransGen Turn c₀ c → (perform call).failure? c = none →
        let c' := (perform call).stateAfter c
        c'.store.load = some c'.pool.snapshot.live ∨
          (c'.store.load = none ∧ c'.pool.books = Books.fresh settings ∧
            ∃ holder limit, call = .cleanup holder limit) := by
  constructor
  · intro calls
    have hsound := Pool.sound_create hfresh
    have hnone : ∀ k, ¬ fresh.shares.Hollow k := by
      obtain ⟨-, rfl⟩ := Pool.create_ok hfresh
      exact ShareBook.not_hollow_empty
    refine ⟨Pool.ascending_snapshot _, fun k => ?_, ?_⟩
    · rw [Pool.mem_map_address_snapshot, Pool.mem_holders_iff_hollow,
        Pool.hollow_after_iff hsound (hnone k)]
    · exact Pool.snapshot_of_ofSnapshot ((Pool.after_confined fresh calls).sound hsound)
  · intro parties store now c₀ c call hempty hsteady hstart hrun hok
    exact (durable_of_run hempty hsteady hstart hrun).load_of_success hok

/-! ## An account with nothing in it -/

/-- A holder enters and sends all its shares away in two halves, neither of which
accounts for the lock on the whole; then the lock, which has ended, is cleared. -/
def hollowing : List Pool.Call :=
  [.enter Pool.rich 10 none 0, .transfer Pool.rich Pool.poor 5 1, .transfer Pool.rich Pool.poor 5 1,
    .cleanup Pool.rich 1 1]

/-- The entry, in operation. -/
def entered : Custody := (perform (.enter Pool.rich 10)).stateAfter opened

/-- Half of the shares are sent away. -/
def halfAway : Call := .transfer Pool.rich Pool.poor 5

/-- No shares are left, but the lock on them is. -/
def sentAway : Custody := (perform halfAway).stateAfter ((perform halfAway).stateAfter entered)

/-- The clearing. -/
def lastLock : Call := .cleanup Pool.rich 1

theorem run_sentAway : Relation.ReflTransGen Turn opened sentAway :=
  ((Relation.ReflTransGen.single (.call _)).tail (.call halfAway)).tail (.call halfAway)

/-- The holder is listed because a clearing has hollowed its account, and the store
holds just the row of the other one. -/
theorem hollowing_listed :
    let p := Pool.after Pool.freshPool hollowing
    let c := (perform lastLock).stateAfter sentAway
    Pool.Hollowed Pool.freshPool Pool.rich hollowing ∧
      p.snapshot.rows.map (·.address) = [Pool.rich, Pool.poor] ∧
      (∃ r, Pool.ofSnapshot p.snapshot = .ok r ∧ r.snapshot = p.snapshot.live) ∧
      c.store.load = some c.pool.snapshot.live ∧
      c.pool.snapshot.live.rows.map (·.address) = [Pool.poor] := by
  have hfresh : Pool.create Pool.looseSettings = .ok Pool.freshPool := rfl
  have hstart : start opened.parties opened.store 5 Pool.looseSettings = .ok opened := rfl
  obtain ⟨hcalls, hruns⟩ := snapshots_list_live_and_hollowed hfresh
  obtain ⟨-, hlisted, hread⟩ := hcalls hollowing
  have hmem : Pool.rich ∈
      (Pool.after Pool.freshPool hollowing).snapshot.rows.map (·.address) := by decide +kernel
  have hempty : ((Pool.after Pool.freshPool hollowing).holderRow Pool.rich).isEmpty = true := by
    decide +kernel
  have hhollowed := ((hlisted Pool.rich).mp hmem).resolve_left (by simp [hempty])
  have hstored := (hruns opened.parties opened.store 5 opened sentAway lastLock rfl
    Store.steady_empty hstart run_sentAway (by decide +kernel)).resolve_right
      fun h => absurd h.1 (by decide +kernel)
  exact ⟨hhollowed, by decide +kernel, hread, hstored, by decide +kernel⟩

/-- The snapshot lists an empty row, which is not there any more in the snapshot of
the pool that is built from it; and after the clearing, which succeeds, the store
does not hold the snapshot. -/
theorem hollowing_ghost :
    let p := Pool.after Pool.freshPool hollowing
    let c := (perform lastLock).stateAfter sentAway
    (∃ row ∈ p.snapshot.rows, row.address = Pool.rich ∧ row.isEmpty = true) ∧
      (∀ r, Pool.ofSnapshot p.snapshot = .ok r → r.snapshot ≠ p.snapshot) ∧
      (perform lastLock).failure? sentAway = none ∧ c.store.load ≠ some c.pool.snapshot := by
  have hread : (Pool.ofSnapshot (Pool.after Pool.freshPool hollowing).snapshot).map Pool.snapshot ≠
      .ok (Pool.after Pool.freshPool hollowing).snapshot := by decide +kernel
  refine ⟨by decide +kernel, fun r hr hsame => ?_, by decide +kernel, by decide +kernel⟩
  rw [hr] at hread
  exact hread (congrArg Except.ok hsame)

end PooledCollateral.Custody
