/-
PooledCollateral.Proofs.Custody.Restart — a pool that is put in operation anew
is the pool that was running.

The store is told of the holders that an operation touches, before the operation
deals with anybody, and once more when the dealings fail. All of it rests on the
store answering the commits of one call alike: if it takes the first and refuses the
second, it keeps the rows of a change that did not take place. How it answers may
change between calls.

A custody is `Durable` when its pool is sound, its store steady, and the store says
the same as the pool, or nothing while the pool is fresh. Every transaction keeps
this, wherever it fails (`always_transact`), and so does every call
(`perform_keeps`); so at every point of a run the store leads back to the same books
(`restart_finds_same_books`).
-/
import Mathlib.Logic.Relation
import PooledCollateral.Proofs.Custody.Failure
import PooledCollateral.Proofs.LockQueue
import PooledCollateral.Proofs.Pool.Records

namespace PooledCollateral

open PooledCollateral.Action

/-! ## Clearings -/

/-- A clearing that leaves as many locks as there were has left the books alone. -/
theorem Pool.books_of_cleanup {p q : Pool} {holder : Address} {limit now : ℕ} {done : Bool}
    (h : (cleanup holder limit now).run p = .ok done q)
    (hlength : (q.holderRow holder).locks.length = (p.holderRow holder).locks.length) :
    q.books = p.books := by
  have hbooks := cleanup_ok h
  have hrow : q.holderRow holder = { p.holderRow holder with
      locks := ((p.shares.locksOf holder).cleanup now limit).locks } :=
    (congrFun (congrArg Books.row hbooks) holder).trans (Function.update_self holder _ _)
  rw [hrow] at hlength
  have hsame : ((p.shares.locksOf holder).cleanup now limit).locks = (p.holderRow holder).locks :=
    (LockQueue.cleared_dropExpired now limit _).eq_of_length hlength
  rw [hbooks, hsame]
  exact congrArg (Books.mk p.totals p.settings) (Function.update_eq_self holder p.holderRow)

namespace Custody

variable {initial : Settings} {c c' : Custody} {α β : Type}

/-! ## Durability -/

/-- The pool is sound, the store answers all commits alike, and it says of the pool
what the books say. -/
structure Durable (initial : Settings) (c : Custody) : Prop where
  sound : c.pool.Sound
  steady : c.store.Steady
  remembers : Snapshot.Remembers initial c.store.load c.pool.books

/-- What was durable stays so. -/
def Keeps (initial : Settings) (c c' : Custody) : Prop := c.Durable initial → c'.Durable initial

instance (initial : Settings) : IsPreorder Custody (Keeps initial) where
  refl _ := id
  trans _ _ _ h h' := fun hc => h' (h hc)

/-- The books of the pool and what the store holds are all that matters. -/
theorem Durable.congr (h : c.Durable initial) (hbooks : c'.pool.books = c.pool.books)
    (hstore : c.store.Unwritten c'.store) : c'.Durable initial where
  sound := h.sound.of_books hbooks
  steady := hstore.steady h.steady
  remembers := by rw [hstore.load, hbooks]; exact h.remembers

/-- A change is durable once the delta of all touched holders is committed. -/
theorem Durable.commit (h : c.Durable initial) {touched : List Address} {q : Pool} {store : Store}
    (hconfined : Pool.Confined touched c.pool q)
    (hcommit : (Store.commit (q.delta touched)).run c.store = .ok () store) :
    ({ c with pool := q, store } : Custody).Durable initial := by
  obtain ⟨-, hload, hfollows⟩ := (c.store.commit_ensures _).of_ok hcommit
  refine ⟨hconfined.sound h.sound, h.steady.follows hfollows, ?_⟩
  show Snapshot.Remembers initial store.load q.books
  rw [hload]
  exact Pool.records_fold h.remembers hconfined.off

/-- Rolling back a committed change commits the rows from before it, which a steady
store takes. -/
theorem Durable.rollBack (h : c.Durable initial) {touched : List Address} {q : Pool} {store : Store}
    (hconfined : Pool.Confined touched c.pool q)
    (hcommit : (Store.commit (q.delta touched)).run c.store = .ok () store)
    (parties : Parties) (pulls : List Pull) :
    (({ c with pool := q, store, parties } : Custody).rollBack (c.pool.checkpoint touched) touched
      pulls).Durable initial := by
  let restored := q.restore (c.pool.checkpoint touched)
  have hbooks : restored.books = c.pool.books := Pool.books_restore hconfined
  have hrows : restored.holderRow = c.pool.holderRow := congrArg Books.row hbooks
  obtain ⟨store', hagain⟩ := h.steady.commit_again hcommit (restored.delta touched)
  have hpast : Pool.Confined touched q restored := by
    refine ⟨fun other hother => ?_, fun _ => h.sound.of_books hbooks⟩
    rw [hrows, hconfined.off other hother]
  have hdurable := (h.commit hconfined hcommit).commit hpast hagain
  have hafter : (Store.commit (restored.delta touched)).stateAfter store = store' :=
    stateAfter_of_ok hagain
  refine hdurable.congr rfl ?_
  unfold Custody.rollBack
  simp only [restored] at hafter ⊢
  rw [hafter]
  exact .refl store'

/-! ## Operations -/

/-- A transaction whose change touches only the given holders leaves store and
pool in agreement, wherever it ends. -/
theorem always_transact {touched : List Address} {change : Action Pool α}
    {deal : α → Action Errand β} (hchange : Always (Pool.Confined touched) change) :
    Always (Keeps initial) (transact touched change deal) := by
  intro c
  refine ensures_transact hchange (fun _ _ _ hbooks hstore h => h.congr hbooks hstore)
    fun a q store hrun hcommit => ?_
  have hconfined := (hchange c.pool).of_ok hrun
  refine ensures_of_forall (fun _ _ h => ?_) fun _ e h => ?_
  · exact (h.commit hconfined hcommit).congr rfl (.refl _)
  · exact h.rollBack hconfined hcommit e.parties e.pulls

/-- Neither the pool nor the store sees how an operation is counted. -/
theorem always_concluded {kind : OperationKind} {act : Action Custody (α × List Event)}
    (h : Always (Keeps initial) act) : Always (Keeps initial) (concluded kind act) := by
  intro c
  exact ensures_concluded ((h c).mono (fun _ _ hkeeps _ hc => (hkeeps hc).congr rfl (.refl _))
    fun _ _ hkeeps _ hc => (hkeeps hc).congr rfl (.refl _))

theorem always_timed {kind : OperationKind} {act : Action Custody α}
    (h : Always (Keeps initial) act) : Always (Keeps initial) (timed kind act) :=
  Always.bind (fun _ => ensures_modify.mpr fun hc => hc.congr rfl (.refl _)) fun _ => h

theorem enter_keeps (caller : Address) (collateral : ℕ) :
    Always (Keeps initial) (enter caller collateral) := by
  refine always_timed (always_concluded (always_get.bind fun c => ?_))
  have hentry : ∀ price : Option Price, Always (Keeps initial) (transact [caller] (do
        let receipt ← Pool.enter caller collateral price c.now
        c.parties.requireAllowance .collateral caller collateral
        return receipt)
      fun _ => Errand.pull .collateral caller collateral) := fun price =>
    always_transact ((Pool.enter_confined _ _ _ _).bind fun _ =>
      (always_lift _).bind fun _ => always_pure _)
  split
  · exact ((always_lift _).map _).bind fun price => (hentry price).bind fun _ => always_pure _
  · exact (always_pure _).bind fun price => (hentry price).bind fun _ => always_pure _

theorem exit_keeps (caller : Address) (shares : ℕ) (recipient : Option Address) :
    Always (Keeps initial) (exit caller shares recipient) := by
  refine always_timed (always_concluded (always_get.bind fun c => (always_lift _).bind fun _ => ?_))
  exact (always_transact (Pool.exit_confined _ _ _ _)).bind fun _ => always_pure _

theorem selfCloseExit_keeps (caller : Address) (request : SelfCloseRequest) :
    Always (Keeps initial) (selfCloseExit caller request) := by
  refine always_timed (always_concluded (always_get.bind fun c => (always_lift _).bind fun _ => ?_))
  refine (always_transact ?_).bind fun _ => ?_
  · refine always_get.bind fun _ => (always_lift _).bind fun plan =>
      (always_lift _).bind fun _ => ?_
    exact (Pool.applySelfClose_confined caller plan c.now).bind fun _ => always_pure _
  · exact Always.bind (fun _ => ensures_modify.mpr fun hc => hc.congr rfl (.refl _))
      fun _ => always_pure _

theorem withdrawFees_keeps (caller : Address) (amount : ℕ) (recipient : Option Address) :
    Always (Keeps initial) (withdrawFees caller amount recipient) :=
  always_timed (always_concluded
    ((always_transact (Pool.withdrawFees_confined _ _)).bind fun _ => always_pure _))

theorem payFeeDebt_keeps (caller : Address) (amount : ℕ) :
    Always (Keeps initial) (payFeeDebt caller amount) := by
  refine always_timed (always_concluded (always_get.bind fun c => ?_))
  exact (always_transact ((Pool.payFeeDebt_confined _ _).bind fun _ => always_lift _)).bind
    fun _ => always_pure _

theorem transfer_keeps (caller receiver : Address) (amount : ℕ) :
    Always (Keeps initial) (transfer caller receiver amount) := by
  refine always_timed (always_concluded (always_get.bind fun c => ?_))
  exact (always_transact (Pool.transfer_confined _ _ _ _)).bind fun _ => always_pure _

theorem payout_keeps (caller holder recipient : Address) (collateral shares : ℕ) :
    Always (Keeps initial) (payout caller holder recipient collateral shares) := by
  refine always_timed (always_concluded (always_get.bind fun c => (always_lift _).bind fun _ => ?_))
  exact (always_transact (Pool.payout_confined _ _ _ _)).bind fun _ => always_pure _

theorem administer_keeps {kind : OperationKind} {change : Action Pool Unit} {event : Event}
    (hchange : Always (Pool.Confined []) change) (caller : Address) :
    Always (Keeps initial) (administer kind caller change event) := by
  refine always_concluded (always_get.bind fun c => (always_lift _).bind fun _ => ?_)
  exact (always_transact hchange).bind fun _ => always_pure _

/-- A clearing that removes no lock is not committed, and changes nothing that
the store should know of. -/
theorem cleanup_keeps (holder : Address) (limit : ℕ) :
    Always (Keeps initial) (cleanup holder limit) := by
  intro c
  refine ensures_cleanup ?_ ?_ ?_
  · exact fun _ _ hrun hlength h => h.congr (Pool.books_of_cleanup hrun hlength) (.refl _)
  · exact fun _ _ _ hrun hcommit h =>
      h.commit ((Pool.cleanup_confined holder limit c.now c.pool).of_ok hrun) hcommit
  · exact fun _ _ hbooks hunwritten h => h.congr hbooks hunwritten

/-! ## Runs -/

/-- Every call keeps store and pool in agreement, whether it succeeds or fails. -/
theorem perform_keeps (call : Call) : Always (Keeps initial) (perform call) := by
  cases call with
  | enter => exact (enter_keeps _ _).bind fun _ => always_pure _
  | exit => exact (exit_keeps _ _ _).bind fun _ => always_pure _
  | selfCloseExit => exact (selfCloseExit_keeps _ _).bind fun _ => always_pure _
  | withdrawFees => exact (withdrawFees_keeps _ _ _).bind fun _ => always_pure _
  | payFeeDebt => exact (payFeeDebt_keeps _ _).bind fun _ => always_pure _
  | transfer => exact (transfer_keeps _ _ _).bind fun _ => always_pure _
  | cleanup => exact (cleanup_keeps _ _).bind fun _ => always_pure _
  | depositFees _ amount =>
    exact (administer_keeps (Pool.depositFees_confined amount) _).bind fun _ => always_pure _
  | receiveCollateral _ amount =>
    exact (administer_keeps (Pool.receiveCollateral_confined amount) _).bind fun _ => always_pure _
  | payout => exact (payout_keeps _ _ _ _ _).bind fun _ => always_pure _
  | updateSettings _ settings =>
    exact (administer_keeps (Pool.updateSettings_confined settings) _).bind fun _ => always_pure _

/-- A turn of a run: a call, successful or not, or something that happens around
the pool and changes neither the pool nor what its store holds. The store may answer
commits otherwise from then on, but still all of them alike. -/
inductive Turn (c : Custody) : Custody → Prop
  | call (call : Call) : Turn c ((perform call).stateAfter c)
  | around (c' : Custody) (hpool : c'.pool = c.pool) (hstore : c.store.Unwritten c'.store) :
      Turn c c'

theorem load_meet (c : Custody) (circumstance : Circumstance) :
    (c.meet circumstance).store.load = c.store.load := by
  cases circumstance with
  | refuseCommits refusals => exact c.store.load_withRefusals refusals
  | failWrites failures => exact c.store.load_withFailures failures
  | _ => rfl

/-- Whatever happens around a pool is a turn, unless it is that the store will take
some of the commits to come and refuse others. -/
theorem turn_meet (c : Custody) (circumstance : Circumstance)
    (hsteady : c.store.Steady → (c.meet circumstance).store.Steady) :
    Turn c (c.meet circumstance) := by
  refine .around _ ?_ ⟨load_meet c circumstance, hsteady⟩
  cases circumstance <;> rfl

theorem Turn.keeps (h : Turn c c') : Keeps initial c c' := by
  cases h with
  | call call => exact (perform_keeps call c).stateAfter
  | around _ hpool hstore => exact fun hc => hc.congr (congrArg Pool.books hpool) hstore

/-- A pool that was put in operation over an empty store stays durable. -/
theorem durable_of_run {parties : Parties} {store : Store} {now : ℕ} {c₀ : Custody}
    (hempty : store.load = none) (hsteady : store.Steady)
    (hstart : start parties store now initial = .ok c₀)
    (hrun : Relation.ReflTransGen Turn c₀ c) : c.Durable initial := by
  induction hrun with
  | refl =>
    obtain ⟨pool, hcreate, hreturn⟩ := Checked.bind_eq_ok_iff.mp hstart
    cases hreturn
    unfold poolOf at hcreate
    rw [hempty] at hcreate
    refine ⟨Pool.sound_create hcreate, hsteady, ?_⟩
    show Snapshot.Remembers initial store.load pool.books
    rw [hempty]
    exact Pool.books_create hcreate
  | tail _ hturn ih => exact hturn.keeps ih

/-- Over the store of a durable custody the pool is found again, with the same
books. -/
theorem Durable.poolOf (h : c.Durable initial) :
    ∃ pool, poolOf c.store initial = .ok pool ∧ pool.books = c.pool.books := by
  have hremembers := h.remembers
  unfold Custody.poolOf
  cases hload : c.store.load with
  | none =>
    rw [hload] at hremembers
    have hvalid : initial.Valid := by
      have hsettings : c.pool.settings = initial := congrArg Books.settings hremembers
      exact hsettings ▸ h.sound.settings
    obtain ⟨fresh, hfresh⟩ := Pool.create_of_valid hvalid
    exact ⟨fresh, hfresh, (Pool.books_create hfresh).trans hremembers.symm⟩
  | some s =>
    rw [hload] at hremembers
    exact Pool.ofSnapshot_of_tells h.sound (Snapshot.Records.tells hremembers)

/-- At every point of a run from an empty store, whichever calls fail, a pool that
is put in operation over the same store has the totals, the settings and the row of
every holder of the running one. The store may begin to refuse commits between any
two calls, and take them again, but it answers all commits of one call alike; one
that takes the commit of a change and refuses to take the old rows back would lead to
a pool that has made the change. -/
theorem restart_finds_same_books {settings : Settings} {parties : Parties} {store : Store} {now : ℕ}
    {c₀ : Custody} (hempty : store.load = none) (hsteady : store.Steady)
    (hstart : start parties store now settings = .ok c₀)
    (hrun : Relation.ReflTransGen Turn c₀ c) (parties' : Parties) (now' : ℕ) :
    ∃ r, start parties' c.store now' settings = .ok r ∧
      r.pool.totals = c.pool.totals ∧ r.pool.settings = c.pool.settings ∧
        ∀ holder, r.pool.holderRow holder = c.pool.holderRow holder := by
  obtain ⟨pool, hpool, hbooks⟩ := (durable_of_run hempty hsteady hstart hrun).poolOf
  let r : Custody :=
    { parties := parties', store := c.store, events := [], now := now', metrics := Metrics.empty,
      pool }
  have hr : start parties' c.store now' settings = .ok r := by
    unfold start
    rw [hpool]
    rfl
  exact ⟨r, hr, congrArg Books.totals hbooks, congrArg Books.settings hbooks,
    congrFun (congrArg Books.row hbooks)⟩

/-! ## An outage -/

/-- A fresh pool over an empty store, and a holder who has approved collateral
and backing asset. -/
def opened : Custody where
  parties :=
    { refusingParties with
      collateral :=
        ((TokenBook.create "C").mint Pool.rich 2000).approve Pool.rich refusingParties.poolAccount
          2000 }
  store := .memory MemoryStore.empty
  events := []
  now := 5
  metrics := Metrics.empty
  pool := Pool.freshPool

/-- The holder enters, and the store begins to refuse commits. -/
def storeDown : Custody :=
  ((perform (.enter Pool.rich 1000)).stateAfter opened).meet (.refuseCommits fun _ => true)

/-- A second entry, which the store refuses. -/
def secondEntry : Call := .enter Pool.rich 500

/-- The store takes commits again; the manager refuses the redemption of a
self-close exit, whose rows have been committed by then. -/
def storeUp : Custody :=
  (perform halfOut).stateAfter
    (((perform secondEntry).stateAfter storeDown).meet (.refuseCommits fun _ => false))

/-- One call fails at the commit and one behind it; only the first entry is in
the pool that is put in operation anew. -/
theorem storeUp_found_again :
    (perform secondEntry).failure? storeDown = some (.rejected (.storage .commitRejected)) ∧
      storeUp.pool.totals.supply = 1000 ∧
      ∃ r, start storeUp.parties storeUp.store 9 Pool.looseSettings = .ok r ∧
        r.pool.totals = storeUp.pool.totals ∧ r.pool.settings = storeUp.pool.settings ∧
          ∀ holder, r.pool.holderRow holder = storeUp.pool.holderRow holder := by
  refine ⟨by decide +kernel, by decide +kernel, ?_⟩
  have hstart : start opened.parties opened.store 5 Pool.looseSettings = .ok opened := rfl
  have hdown : Relation.ReflTransGen Turn opened storeDown :=
    (Relation.ReflTransGen.single (.call _)).tail (turn_meet _ _ fun _ _ => rfl)
  have hup : Relation.ReflTransGen Turn opened storeUp :=
    ((hdown.tail (.call secondEntry)).tail (turn_meet _ _ fun _ _ => rfl)).tail (.call halfOut)
  exact restart_finds_same_books rfl Store.steady_empty hstart hup storeUp.parties 9

end Custody

end PooledCollateral
