/-
PooledCollateral.Proofs.Custody.Outcome — how an operation of a pool in
operation can end.

The outcome of every operation is described twice. If it fails, everything is as
before: the books of the pool, every balance, the events, and — if the operation
was refused — the manager (`Undone`). If it succeeds, then what the pool's account
holds of each asset beyond what the pool books, its `surplus`, has not become
less, unless the manager has reported tokens that were there before
(`Settled`). `perform_ensures` says so of every call.
-/
import PooledCollateral.Custody.Call
import PooledCollateral.Proofs.Commit
import PooledCollateral.Proofs.Custody.Dealings
import PooledCollateral.Proofs.Pool.Effects
import PooledCollateral.Proofs.Pool.Restore

namespace PooledCollateral

open PooledCollateral.Action

namespace Pool

/-- What a pool books of an asset as its own. -/
def booked (p : Pool) : Asset → ℕ
  | .collateral => p.collateral
  | .backing => p.feeReserve

end Pool

/-- If the manager reports a liability, it is the one that it has. -/
theorem Parties.liability_of_backingState {p : Parties} {backing : Backing}
    (h : p.backingState = .ok backing) : backing.liability = p.manager.liability := by
  obtain ⟨_, hreport, hrest⟩ := Checked.bind_eq_ok_iff.mp h
  obtain ⟨_, -, hreported⟩ := Checked.bind_eq_ok_iff.mp hreport
  obtain ⟨_, -, hreturn⟩ := Checked.bind_eq_ok_iff.mp hrest
  cases hreported
  cases hreturn
  rfl

namespace Custody

/-- What the pool's account holds of an asset beyond what the pool books. -/
def surplus (c : Custody) (asset : Asset) : ℤ := c.parties.holding asset - c.pool.booked asset

/-- After a failure: the books, the balances and the events are as before, and
if the operation was refused so is the manager, as long as its liability is an
amount. -/
structure Undone (c : Custody) (failure : Failure) (c' : Custody) : Prop where
  books : c'.pool.books = c.pool.books
  tokens : c.parties.SameTokens c'.parties
  events : c'.events = c.events
  manager : c.parties.manager.liability ≤ Amount.max → ∀ cause, failure = .rejected cause →
    c'.parties.manager = c.parties.manager

variable {c : Custody} {α β : Type}

theorem Undone.surplus {failure : Failure} {c' : Custody} (h : c.Undone failure c')
    (asset : Asset) : c'.surplus asset = c.surplus asset := by
  have hbooked : c'.pool.booked asset = c.pool.booked asset := by
    have htotals : c'.pool.totals = c.pool.totals := congrArg Books.totals h.books
    cases asset with
    | collateral => exact congrArg Totals.collateral htotals
    | backing => exact congrArg Totals.feeReserve htotals
  unfold Custody.surplus
  rw [h.tokens.holding, hbooked]

theorem undone_start (c : Custody) (m : Metrics) (failure : Failure) :
    c.Undone failure { c with metrics := m } :=
  ⟨rfl, Parties.SameTokens.refl _, rfl, fun _ _ _ => rfl⟩

/-! ## Building blocks -/

theorem run_transact (touched : List Address) (change : Action Pool α)
    (deal : α → Action Errand β) (c : Custody) :
    EStateM.run (transact touched change deal) c =
      match change.run c.pool with
      | .error e pool => .error e { c with pool := pool.restore (c.pool.checkpoint touched) }
      | .ok a pool =>
        match (Store.commit (pool.delta touched)).run c.store with
        | .error e store =>
          .error e { c with pool := pool.restore (c.pool.checkpoint touched), store }
        | .ok _ store =>
          match (deal a).run { parties := c.parties, pulls := [] } with
          | .ok b errand => .ok (a, b) { c with pool, store, parties := errand.parties }
          | .error e errand =>
            .error e (rollBack { c with pool, store, parties := errand.parties }
              (c.pool.checkpoint touched) touched errand.pulls) := rfl

/-- A transaction ends with its change, with the commit, or with its dealings. -/
theorem ensures_transact_stages {touched : List Address} {change : Action Pool α}
    {deal : α → Action Errand β} {good : α × β → Custody → Prop} {bad : Failure → Custody → Prop}
    (hchange : ∀ failure q, change.run c.pool = .error failure q →
      bad failure { c with pool := q.restore (c.pool.checkpoint touched) })
    (hcommit : ∀ a q failure store, change.run c.pool = .ok a q →
      (Store.commit (q.delta touched)).run c.store = .error failure store →
      bad failure { c with pool := q.restore (c.pool.checkpoint touched), store })
    (hdeal : ∀ a q store, change.run c.pool = .ok a q →
      (Store.commit (q.delta touched)).run c.store = .ok () store →
      (deal a).Ensures { parties := c.parties, pulls := [] }
        (fun b e => good (a, b) { c with pool := q, store, parties := e.parties })
        (fun failure e => bad failure (rollBack { c with pool := q, store, parties := e.parties }
          (c.pool.checkpoint touched) touched e.pulls))) :
    (transact touched change deal).Ensures c good bad := by
  unfold Ensures
  rw [run_transact]
  cases hrun : change.run c.pool with
  | error failure q => exact hchange failure q hrun
  | ok a q =>
    cases hstore : (Store.commit (q.delta touched)).run c.store with
    | error failure store =>
      simp only [hstore]
      exact hcommit a q failure store hrun hstore
    | ok _ store =>
      have hdealt := hdeal a q store hrun hstore
      simp only [hstore]
      cases hrunDeal : EStateM.run (deal a) { parties := c.parties, pulls := [] } with
      | ok b e => exact hdealt.of_ok hrunDeal
      | error failure e => exact hdealt.of_error hrunDeal

/-- If the change touches only the given holders, the books are as before and the
store holds what it held, unless it comes to dealings. -/
theorem ensures_transact {touched : List Address} {change : Action Pool α}
    {deal : α → Action Errand β} {good : α × β → Custody → Prop} {bad : Failure → Custody → Prop}
    (hchange : Always (Pool.Confined touched) change)
    (hundone : ∀ failure q store, q.books = c.pool.books → c.store.Unwritten store →
      bad failure { c with pool := q, store })
    (hdeal : ∀ a q store, change.run c.pool = .ok a q →
      (Store.commit (q.delta touched)).run c.store = .ok () store →
      (deal a).Ensures { parties := c.parties, pulls := [] }
        (fun b e => good (a, b) { c with pool := q, store, parties := e.parties })
        (fun failure e => bad failure (rollBack { c with pool := q, store, parties := e.parties }
          (c.pool.checkpoint touched) touched e.pulls))) :
    (transact touched change deal).Ensures c good bad := by
  refine ensures_transact_stages (fun failure q hrun => ?_)
    (fun _ q failure store hrun hrefused => ?_) hdeal
  · exact hundone failure _ _ (Pool.books_restore ((hchange c.pool).of_error hrun)) (.refl _)
  · exact hundone failure _ _ (Pool.books_restore ((hchange c.pool).of_ok hrun))
      (Store.unwritten_of_commit_error hrefused)

/-- A transaction whose change touches only the given holders, and whose dealings
can be abandoned, succeeds with what the two leave, or is undone. -/
theorem transact_ensures {touched : List Address} {change : Action Pool α}
    {deal : α → Action Errand β} (dealt : α → Parties → Prop) (m : Metrics)
    (hchange : Always (Pool.Confined touched) change)
    (hdeal : ∀ a q, change.run c.pool = .ok a q →
      (deal a).Ensures { parties := c.parties, pulls := [] } (fun _ e => dealt a e.parties)
        (fun failure e => e.Abandoned c.parties failure)) :
    (transact touched change deal).Ensures { c with metrics := m }
      (fun r c' => change.run c.pool = .ok r.1 c'.pool ∧ dealt r.1 c'.parties)
      (fun failure c' => c.Undone failure c') := by
  refine ensures_transact hchange (fun _ _ _ hbooks _ => ?_) fun a q _ hrun _ => ?_
  · exact ⟨hbooks, Parties.SameTokens.refl _, rfl, fun _ _ _ => rfl⟩
  · have hrestored := Pool.books_restore ((hchange c.pool).of_ok hrun)
    exact (hdeal a q hrun).mono (fun _ _ hdealt => ⟨hrun, hdealt⟩) fun _ _ habandoned =>
      ⟨hrestored, habandoned.tokens, rfl, habandoned.manager⟩

/-- How an operation is counted is seen by the metrics alone, and what it
publishes by the events alone. -/
theorem ensures_concluded {kind : OperationKind} {act : Action Custody (α × List Event)}
    {good : α → Custody → Prop} {bad : Failure → Custody → Prop}
    (h : act.Ensures c
      (fun r c' => ∀ metrics, good r.1 { c' with events := c'.events ++ r.2, metrics })
      (fun failure c' => ∀ metrics, bad failure { c' with metrics })) :
    (concluded kind act).Ensures c good bad := by
  have happlied : EStateM.run (concluded kind act) c = concluded kind act c := rfl
  unfold Ensures at h ⊢
  rw [happlied]
  unfold concluded
  cases hact : act.run c with
  | ok r c' =>
    rw [hact] at h
    exact h _
  | error failure c' =>
    rw [hact] at h
    cases failure with
    | rejected cause => exact h _
    | fault => exact h c'.metrics

/-- That an operation ran is seen by the metrics alone. -/
theorem ensures_timed {kind : OperationKind} {act : Action Custody α}
    {good : α → Custody → Prop} {bad : Failure → Custody → Prop}
    (h : ∀ metrics, act.Ensures { c with metrics } good bad) :
    (timed kind act).Ensures c good bad := by
  unfold timed
  rw [ensures_bind, ensures_modify]
  exact h _

/-- Operations are counted and timed, and publish their events; none of it is
seen by the parties or the pool. -/
theorem concluded_ensures {kind : OperationKind} {act : Action Custody (α × List Event)}
    (good : Parties → Pool → Prop) (m : Metrics)
    (h : act.Ensures { c with metrics := m } (fun _ c' => good c'.parties c'.pool)
      (fun failure c' => c.Undone failure c')) :
    (concluded kind act).Ensures { c with metrics := m } (fun _ c' => good c'.parties c'.pool)
      (fun failure c' => c.Undone failure c') := by
  exact ensures_concluded (h.mono (fun _ _ hgood _ => hgood) fun _ _ hundone _ =>
    ⟨hundone.books, hundone.tokens, hundone.events, hundone.manager⟩)

theorem timed_ensures {kind : OperationKind} {act : Action Custody (α × List Event)}
    (good : Parties → Pool → Prop)
    (h : ∀ m, act.Ensures { c with metrics := m } (fun _ c' => good c'.parties c'.pool)
      (fun failure c' => c.Undone failure c')) :
    (timed kind (concluded kind act)).Ensures c (fun _ c' => good c'.parties c'.pool)
      (fun failure c' => c.Undone failure c') :=
  ensures_timed fun m => concluded_ensures good m (h m)

/-! ## Settling -/

/-- After a success: no token has been made or lost, and the surplus of neither
asset is less than before. -/
structure Settled (c : Custody) (p : Parties) (q : Pool) : Prop where
  conserves : c.parties.Conserves p
  surplus : ∀ asset, c.surplus asset ≤ p.holding asset - q.booked asset

/-- What has come and gone is what the pool has booked. -/
theorem settled_of_dealt {p : Parties} {q : Pool} {totals : Totals} {came went : Asset → ℕ}
    (hdealt : c.parties.Dealt p came went) (htotals : q.totals = totals)
    (hcollateral : totals.collateral + went .collateral ≤ c.pool.collateral + came .collateral)
    (hbacking : totals.feeReserve + went .backing ≤ c.pool.feeReserve + came .backing) :
    c.Settled p q := by
  refine ⟨hdealt.conserves, ?_⟩
  intro asset
  have htokens := hdealt.holding asset
  subst htotals
  unfold surplus
  cases asset with
  | collateral =>
    simp only [Pool.totals] at hcollateral
    simp only [Pool.booked]
    omega
  | backing =>
    simp only [Pool.totals] at hbacking
    simp only [Pool.booked]
    omega

/-- A check after a change leaves the change as it is. -/
theorem run_of_checked {σ : Type} {act : Action σ α} {check : Checked Unit} {s t : σ} {a : α}
    (h : EStateM.run (do
      let a ← act
      check
      return a) s = .ok a t) : act.run s = .ok a t := by
  obtain ⟨b, u, hact, hrest⟩ := run_bind_eq_ok_iff.mp h
  obtain ⟨_, _, hcheck, hreturn⟩ := run_bind_eq_ok_iff.mp hrest
  obtain ⟨-, rfl⟩ := run_lift_eq_ok_iff.mp hcheck
  cases hreturn
  exact hact

/-- Nor does a check between a plan and its application. -/
theorem applied_of_checked {p q : Pool} {holder : Address} {shares now : ℕ} {backing : Backing}
    {check : SelfClosePlan → Checked Unit} {plan : SelfClosePlan} {receipt : ExitReceipt}
    (h : EStateM.run (do
      let plan ← (← get).planSelfClose holder shares backing now
      check plan
      return (plan, ← Pool.applySelfClose holder plan now) :
      Action Pool (SelfClosePlan × ExitReceipt)) p = .ok (plan, receipt) q) :
    p.planSelfClose holder shares backing now = .ok plan ∧
      (Pool.applySelfClose holder plan now).run p = .ok receipt q := by
  simp only [run_bind_eq_ok_iff, run_lift_eq_ok_iff] at h
  obtain ⟨_, _, hget, _, _, ⟨hplan, rfl⟩, _, _, ⟨-, rfl⟩, _, _, happly, hreturn⟩ := h
  cases hget
  cases hreturn
  exact ⟨hplan, happly⟩

/-! ## Operations -/

theorem enter_ensures (hb : c.parties.Bounded) (caller : Address) (collateral : ℕ) :
    (enter caller collateral).Ensures c
      (fun _ c' => caller ≠ c.parties.poolAccount → c.Settled c'.parties c'.pool)
      (fun failure c' => c.Undone failure c') := by
  refine timed_ensures (fun p q => caller ≠ c.parties.poolAccount → c.Settled p q) fun m => ?_
  have htransact : ∀ price,
      (transact [caller] (do
          let receipt ← Pool.enter caller collateral price c.now
          c.parties.requireAllowance .collateral caller collateral
          return receipt)
        fun _ => Errand.pull .collateral caller collateral).Ensures { c with metrics := m }
        (fun _ c' => caller ≠ c.parties.poolAccount → c.Settled c'.parties c'.pool)
        (fun failure c' => c.Undone failure c') := by
    intro price
    refine (transact_ensures (fun _ p => caller ≠ c.parties.poolAccount →
        c.parties.Dealt p (Parties.only .collateral collateral) 0) m
      ((Pool.enter_confined _ _ _ _).bind fun _ =>
        (always_lift _).bind fun _ => always_pure _)
      fun _ _ _ => pull_ensures hb .collateral caller collateral).mono ?_ fun _ _ h => h
    intro _ c' hpost hcaller
    obtain ⟨hrun, hdealt⟩ := hpost
    obtain ⟨quote, hquote, -, hbooks⟩ := Pool.enter_ok (run_of_checked hrun)
    obtain ⟨-, hafter, -⟩ := Pool.quoteEntry_ok hquote
    refine settled_of_dealt (hdealt hcaller) (congrArg Books.totals hbooks) ?_ ?_
    · simp [hafter]
    · simp [Pool.totals]
  simp only [ensures_bind, ensures_get, ensures_ite, ensures_map, ensures_lift, ensures_pure]
  refine ⟨fun _ => ⟨fun price _ => ?_, fun failure _ => undone_start c m failure⟩, fun _ => ?_⟩
  · exact htransact price
  · exact htransact none

theorem exit_ensures (hb : c.parties.Bounded) (caller : Address) (shares : ℕ)
    (recipient : Option Address) :
    (exit caller shares recipient).Ensures c (fun _ c' => c.Settled c'.parties c'.pool)
      (fun failure c' => c.Undone failure c') := by
  refine timed_ensures (fun p q => c.Settled p q) fun m => ?_
  simp only [ensures_bind, ensures_get, ensures_lift]
  refine ⟨fun backing _ => ?_, fun failure _ => undone_start c m failure⟩
  refine (transact_ensures (fun receipt p => c.parties.Dealt p 0
      (Parties.only .collateral receipt.collateral + Parties.only .backing receipt.fees)) m
    (Pool.exit_confined _ _ _ _) fun _ _ _ => send_both_ensures hb _ _ _).mono ?_ fun _ _ h => h
  intro _ c' hpost
  obtain ⟨hrun, hdealt⟩ := hpost
  obtain ⟨quote, -, hcarry, hreceipt⟩ := Pool.exit_ok hrun
  obtain ⟨⟨hfees, hcollateral, -, -⟩, -, _, -, hbooks⟩ := Pool.carryOut_ok hcarry
  rw [hreceipt] at hdealt
  refine settled_of_dealt hdealt (congrArg Books.totals hbooks) ?_ ?_
  · simp [Nat.sub_add_cancel hcollateral]
  · simp [Nat.sub_add_cancel hfees]

/-- The fees that a self-close exit takes from the reserve, and what it pulls
from the holder, are what it burns and what it sends. -/
theorem selfCloseExit_ensures (hb : c.parties.Bounded) (caller : Address)
    (request : SelfCloseRequest) :
    (selfCloseExit caller request).Ensures c
      (fun _ c' => caller ≠ c.parties.poolAccount → c.Settled c'.parties c'.pool)
      (fun failure c' => c.Undone failure c') := by
  refine timed_ensures (fun p q => caller ≠ c.parties.poolAccount → c.Settled p q) fun m => ?_
  simp only [ensures_bind, ensures_get, ensures_lift, ensures_modify, ensures_pure]
  refine ⟨fun backing hbacking => ?_, fun failure _ => undone_start c m failure⟩
  have hliability := Parties.liability_of_backingState hbacking
  refine (transact_ensures (fun r p => caller ≠ c.parties.poolAccount →
      c.parties.Dealt p (Parties.only .backing r.1.funding.fromHolder)
        (Parties.only .collateral r.2.collateral
          + Parties.only .backing (r.1.burn + r.1.funding.toRecipient))) m ?_ ?_).mono ?_
    fun _ _ h => h
  · refine always_get.bind fun _ => (always_lift _).bind fun plan => ?_
    refine (always_lift _).bind fun _ => ?_
    exact (Pool.applySelfClose_confined caller plan c.now).bind fun _ => always_pure _
  · intro r q hrun
    obtain ⟨plan, receipt⟩ := r
    obtain ⟨hquote, hburn, hfunding⟩ := Pool.planSelfClose_ok (applied_of_checked hrun).1
    have hfees := (Pool.quoteExit_ok hquote).fees_le_max
    refine dealSelfClose_ensures hb caller _ request plan receipt
      (fun hle => hburn.trans (hliability.trans_le hle)) fun hamount => ?_
    rw [hfunding]
    show plan.burn + (plan.quote.fees - plan.burn) ≤ Amount.max
    omega
  · intro r c' hpost hcaller
    obtain ⟨⟨plan, receipt⟩, _⟩ := r
    obtain ⟨hrun, hdealt⟩ := hpost
    obtain ⟨hplan, happly⟩ := applied_of_checked hrun
    obtain ⟨-, -, hfunding⟩ := Pool.planSelfClose_ok hplan
    obtain ⟨hcarry, hreceipt⟩ := Pool.applySelfClose_ok happly
    obtain ⟨⟨hfees, hcollateral, -, -⟩, -, _, -, hbooks⟩ := Pool.carryOut_ok hcarry
    have hdealt := hdealt hcaller
    simp only [hreceipt, hfunding] at hdealt
    refine settled_of_dealt hdealt (congrArg Books.totals hbooks) ?_ ?_
    · simp [Nat.sub_add_cancel hcollateral]
    · simp only [Pi.add_apply, ne_eq, reduceCtorEq, not_false_eq_true, Parties.only_of_ne,
        Parties.only_self, zero_add]
      omega

theorem withdrawFees_ensures (hb : c.parties.Bounded) (caller : Address) (amount : ℕ)
    (recipient : Option Address) :
    (withdrawFees caller amount recipient).Ensures c (fun _ c' => c.Settled c'.parties c'.pool)
      (fun failure c' => c.Undone failure c') := by
  refine timed_ensures (fun p q => c.Settled p q) fun m => ?_
  simp only [ensures_bind, ensures_pure]
  refine (transact_ensures (fun _ p => c.parties.Dealt p 0 (Parties.only .backing amount)) m
    (Pool.withdrawFees_confined _ _) fun _ _ _ => send_ensures hb _ _ _).mono ?_ fun _ _ h => h
  intro _ c' hpost
  obtain ⟨hrun, hdealt⟩ := hpost
  obtain ⟨_, -, -, hreserve, hbooks⟩ := Pool.withdrawFees_ok hrun
  refine settled_of_dealt hdealt (congrArg Books.totals hbooks) ?_ ?_
  · simp [Pool.totals]
  · simp [Nat.sub_add_cancel hreserve]

theorem payFeeDebt_ensures (hb : c.parties.Bounded) (caller : Address) (amount : ℕ) :
    (payFeeDebt caller amount).Ensures c
      (fun _ c' => caller ≠ c.parties.poolAccount → c.Settled c'.parties c'.pool)
      (fun failure c' => c.Undone failure c') := by
  refine timed_ensures (fun p q => caller ≠ c.parties.poolAccount → c.Settled p q) fun m => ?_
  simp only [ensures_bind, ensures_get, ensures_pure]
  refine (transact_ensures (fun _ p => caller ≠ c.parties.poolAccount →
      c.parties.Dealt p (Parties.only .backing amount) 0) m
    ((Pool.payFeeDebt_confined _ _).bind fun _ => always_lift _)
    fun _ _ _ => pull_ensures hb _ _ _).mono ?_ fun _ _ h => h
  intro _ c' hpost hcaller
  obtain ⟨hrun, hdealt⟩ := hpost
  obtain ⟨_, _, hpay, hcheck⟩ := run_bind_eq_ok_iff.mp hrun
  obtain ⟨-, rfl⟩ := run_lift_eq_ok_iff.mp hcheck
  obtain ⟨-, -, hbooks⟩ := Pool.payFeeDebt_ok hpay
  refine settled_of_dealt (hdealt hcaller) (congrArg Books.totals hbooks) ?_ ?_
  · simp [Pool.totals]
  · simp

theorem transfer_ensures (caller receiver : Address) (amount : ℕ) :
    (transfer caller receiver amount).Ensures c (fun _ c' => c.Settled c'.parties c'.pool)
      (fun failure c' => c.Undone failure c') := by
  refine timed_ensures (fun p q => c.Settled p q) fun m => ?_
  simp only [ensures_bind, ensures_get, ensures_pure]
  refine (transact_ensures (fun _ p => p = c.parties) m (Pool.transfer_confined _ _ _ _)
    fun _ _ _ => pure_ensures c.parties ()).mono ?_ fun _ _ h => h
  intro _ c' hpost
  obtain ⟨hrun, hparties⟩ := hpost
  have htotals : c'.pool.totals = c.pool.totals := by
    obtain ⟨_, _, -, -, -, -, ⟨-, hsame⟩ | ⟨-, -, _, -, hbooks⟩⟩ := Pool.transfer_ok hrun
    · rw [hsame]
    · exact congrArg Books.totals hbooks
  rw [hparties]
  exact settled_of_dealt (Parties.Dealt.refl _) htotals le_rfl le_rfl

theorem payout_ensures (hb : c.parties.Bounded) (caller holder recipient : Address)
    (collateral shares : ℕ) :
    (payout caller holder recipient collateral shares).Ensures c
      (fun _ c' => c.Settled c'.parties c'.pool) (fun failure c' => c.Undone failure c') := by
  refine timed_ensures (fun p q => c.Settled p q) fun m => ?_
  simp only [ensures_bind, ensures_get, ensures_lift, ensures_pure]
  refine ⟨fun _ _ => ?_, fun failure _ => undone_start c m failure⟩
  refine (transact_ensures (fun _ p => c.parties.Dealt p 0 (Parties.only .collateral collateral)) m
    (Pool.payout_confined _ _ _ _) fun _ _ _ => send_ensures hb _ _ _).mono ?_ fun _ _ h => h
  intro _ c' hpost
  obtain ⟨hrun, hdealt⟩ := hpost
  obtain ⟨-, -, hcollateral, _, _, -, -, hbooks⟩ := Pool.payout_ok hrun
  refine settled_of_dealt hdealt (congrArg Books.totals hbooks) ?_ ?_
  · simp [Nat.sub_add_cancel hcollateral]
  · simp [Pool.totals]

/-- An administrative operation is the manager's, and changes the pool alone. -/
theorem administer_ensures {kind : OperationKind} {change : Action Pool Unit} {event : Event}
    (hchange : Always (Pool.Confined []) change) (caller : Address) :
    (administer kind caller change event).Ensures c
      (fun _ c' => caller = c.parties.managerAccount ∧ c'.parties = c.parties ∧
        change.run c.pool = .ok () c'.pool)
      (fun failure c' => c.Undone failure c') := by
  refine concluded_ensures (fun p q => caller = c.parties.managerAccount ∧ p = c.parties ∧
    change.run c.pool = .ok () q) c.metrics ?_
  simp only [ensures_bind, ensures_get, ensures_lift, ensures_pure]
  refine ⟨fun _ hcaller => ?_, fun failure _ => undone_start c c.metrics failure⟩
  refine (transact_ensures (fun _ p => p = c.parties) c.metrics hchange
    fun _ _ _ => pure_ensures c.parties ()).mono ?_ fun _ _ h => h
  intro _ c' hpost
  obtain ⟨hrun, hparties⟩ := hpost
  exact ⟨require_eq_ok_iff.mp hcaller, hparties, hrun⟩

/-- A clearing of locks cannot fail. One that removes none is not committed; any other
takes place if the store takes it, and else leaves the books and what the store
holds. -/
theorem ensures_cleanup {holder : Address} {limit : ℕ} {good : Bool → Custody → Prop}
    {bad : Failure → Custody → Prop}
    (hnone : ∀ done q, (Pool.cleanup holder limit c.now).run c.pool = .ok done q →
      (q.holderRow holder).locks.length = (c.pool.holderRow holder).locks.length →
      good done { c with pool := q })
    (htaken : ∀ done q store, (Pool.cleanup holder limit c.now).run c.pool = .ok done q →
      (Store.commit (q.delta [holder])).run c.store = .ok () store →
      good done { c with pool := q, store })
    (hrefused : ∀ q store, q.books = c.pool.books → c.store.Unwritten store →
      good false { c with pool := q, store }) :
    (cleanup holder limit).Ensures c good bad := by
  obtain ⟨done, q, hrun⟩ : ∃ done q, (Pool.cleanup holder limit c.now).run c.pool = .ok done q :=
    ⟨_, _, rfl⟩
  have hconfined := (Pool.cleanup_confined holder limit c.now c.pool).of_ok hrun
  have happlied : EStateM.run (cleanup holder limit) c = cleanup holder limit c := rfl
  unfold Ensures
  rw [happlied]
  unfold cleanup
  simp only [hrun]
  split_ifs with hlength
  · exact hnone done q hrun hlength
  · cases hcommit : (Store.commit (q.delta [holder])).run c.store with
    | ok _ store => exact htaken done q store hrun hcommit
    | error failure store =>
      exact hrefused _ store (Pool.books_restore hconfined)
        (Store.unwritten_of_commit_error hcommit)

/-- Neither the parties nor the totals see a clearing of locks. -/
theorem cleanup_ensures (holder : Address) (limit : ℕ) :
    (cleanup holder limit).Ensures c
      (fun _ c' => c'.parties = c.parties ∧ c'.pool.totals = c.pool.totals) (fun _ _ => False) := by
  have htotals : ∀ {done q}, (Pool.cleanup holder limit c.now).run c.pool = .ok done q →
      q.totals = c.pool.totals := fun hrun => congrArg Books.totals (Pool.cleanup_ok hrun)
  refine ensures_cleanup ?_ ?_ ?_
  · exact fun _ _ hrun _ => ⟨rfl, htotals hrun⟩
  · exact fun _ _ _ hrun _ => ⟨rfl, htotals hrun⟩
  · exact fun _ _ hbooks _ => ⟨rfl, congrArg Books.totals hbooks⟩

/-! ## Every call -/

/-- Who makes a call. A clearing of locks is nobody's. -/
def Call.caller? : Call → Option Address
  | .enter caller _ => some caller
  | .exit caller _ _ => some caller
  | .selfCloseExit caller _ => some caller
  | .withdrawFees caller _ _ => some caller
  | .payFeeDebt caller _ => some caller
  | .transfer caller _ _ => some caller
  | .cleanup _ _ => none
  | .depositFees caller _ => some caller
  | .receiveCollateral caller _ => some caller
  | .payout caller _ _ _ _ => some caller
  | .updateSettings caller _ => some caller

/-- The tokens that a call reports to be the pool's. -/
def Call.report? : Call → Option (Asset × ℕ)
  | .depositFees _ amount => some (.backing, amount)
  | .receiveCollateral _ amount => some (.collateral, amount)
  | _ => none

/-- What a successful call leaves: no token has been made or lost, and the
surplus of neither asset is less than before, except that a report, which only
the manager can make, takes its amount off the surplus of its asset. -/
structure Kept (c : Custody) (call : Call) (c' : Custody) : Prop where
  conserves : c.parties.Conserves c'.parties
  surplus : call.report? = none → ∀ asset, c.surplus asset ≤ c'.surplus asset
  reported : ∀ asset amount, call.report? = some (asset, amount) →
    call.caller? = some c.parties.managerAccount ∧ c'.surplus asset = c.surplus asset - amount ∧
      ∀ other, other ≠ asset → c'.surplus other = c.surplus other

theorem Settled.kept {call : Call} {c' : Custody} (h : c.Settled c'.parties c'.pool)
    (hreport : call.report? = none) : c.Kept call c' := by
  refine ⟨h.conserves, fun _ asset => h.surplus asset, fun _ _ hsome => ?_⟩
  rw [hreport] at hsome
  cases hsome

/-- A call that leaves the parties alone, and books no more than it reports. -/
theorem kept_of_parties {call : Call} {c' : Custody} {asset : Asset} {amount : ℕ}
    (hcaller : call.caller? = some c.parties.managerAccount) (hparties : c'.parties = c.parties)
    (hreport : call.report? = some (asset, amount))
    (hbooked : ∀ other,
      c'.pool.booked other = c.pool.booked other + Parties.only asset amount other) :
    c.Kept call c' := by
  have hsurplus : ∀ other,
      c'.surplus other = c.surplus other - Parties.only asset amount other := by
    intro other
    unfold surplus
    rw [hparties, hbooked]
    omega
  refine ⟨hparties ▸ Parties.Conserves.refl _, fun hnone => ?_, fun asset' amount' hsome => ?_⟩
  · rw [hnone] at hreport
    cases hreport
  · rw [hreport] at hsome
    cases hsome
    refine ⟨hcaller, ?_, fun other hother => ?_⟩
    · rw [hsurplus, Parties.only_self]
    · rw [hsurplus, Parties.only_of_ne amount hother, Nat.cast_zero, sub_zero]

/-- Every call that fails is undone, and every call that succeeds keeps the
surplus, unless the pool's account itself is the caller. -/
theorem perform_ensures (hb : c.parties.Bounded) (call : Call) :
    (perform call).Ensures c
      (fun _ c' => call.caller? ≠ some c.parties.poolAccount → c.Kept call c')
      (fun failure c' => c.Undone failure c') := by
  cases call with
  | enter caller collateral =>
    simp only [perform, ensures_bind, ensures_pure]
    exact (enter_ensures hb caller collateral).mono
      (fun _ _ h hcaller => (h fun heq => hcaller (congrArg some heq)).kept rfl) fun _ _ h => h
  | exit caller shares recipient =>
    simp only [perform, ensures_bind, ensures_pure]
    exact (exit_ensures hb caller shares recipient).mono (fun _ _ h _ => h.kept rfl) fun _ _ h => h
  | selfCloseExit caller request =>
    simp only [perform, ensures_bind, ensures_pure]
    exact (selfCloseExit_ensures hb caller request).mono
      (fun _ _ h hcaller => (h fun heq => hcaller (congrArg some heq)).kept rfl) fun _ _ h => h
  | withdrawFees caller amount recipient =>
    simp only [perform, ensures_bind, ensures_pure]
    exact (withdrawFees_ensures hb caller amount recipient).mono (fun _ _ h _ => h.kept rfl)
      fun _ _ h => h
  | payFeeDebt caller amount =>
    simp only [perform, ensures_bind, ensures_pure]
    exact (payFeeDebt_ensures hb caller amount).mono
      (fun _ _ h hcaller => (h fun heq => hcaller (congrArg some heq)).kept rfl) fun _ _ h => h
  | transfer caller receiver amount =>
    simp only [perform, ensures_bind, ensures_pure]
    exact (transfer_ensures caller receiver amount).mono (fun _ _ h _ => h.kept rfl) fun _ _ h => h
  | cleanup holder limit =>
    simp only [perform, ensures_bind, ensures_pure]
    refine (cleanup_ensures holder limit).mono ?_ fun _ _ => False.elim
    intro _ c' hpost _
    obtain ⟨hparties, htotals⟩ := hpost
    refine Settled.kept ?_ rfl
    rw [hparties]
    exact settled_of_dealt (Parties.Dealt.refl _) htotals le_rfl le_rfl
  | depositFees caller amount =>
    simp only [perform, ensures_bind, ensures_pure]
    refine (administer_ensures (Pool.depositFees_confined amount) caller).mono ?_ fun _ _ h => h
    intro _ c' hpost _
    obtain ⟨hcaller, hparties, hrun⟩ := hpost
    refine kept_of_parties (congrArg some hcaller) hparties rfl fun other => ?_
    rw [Pool.depositFees_ok hrun]
    cases other <;> simp [Pool.booked]
  | receiveCollateral caller amount =>
    simp only [perform, ensures_bind, ensures_pure]
    refine (administer_ensures (Pool.receiveCollateral_confined amount) caller).mono ?_
      fun _ _ h => h
    intro _ c' hpost _
    obtain ⟨hcaller, hparties, hrun⟩ := hpost
    refine kept_of_parties (congrArg some hcaller) hparties rfl fun other => ?_
    rw [Pool.receiveCollateral_ok hrun]
    cases other <;> simp [Pool.booked]
  | payout caller holder recipient collateral shares =>
    simp only [perform, ensures_bind, ensures_pure]
    exact (payout_ensures hb caller holder recipient collateral shares).mono
      (fun _ _ h _ => h.kept rfl) fun _ _ h => h
  | updateSettings caller settings =>
    simp only [perform, ensures_bind, ensures_pure]
    refine (administer_ensures (Pool.updateSettings_confined settings) caller).mono ?_
      fun _ _ h => h
    intro _ c' hpost _
    obtain ⟨-, hparties, hrun⟩ := hpost
    refine Settled.kept ?_ rfl
    rw [hparties, (Pool.updateSettings_ok hrun).2]
    exact settled_of_dealt (Parties.Dealt.refl _) rfl le_rfl le_rfl

end Custody

end PooledCollateral
