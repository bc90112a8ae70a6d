/-
PooledCollateral.Proofs.Custody.PoolCalls — an operation that succeeds is an
operation of the pool.

`Means` says which call of the pool a call comes down to, with the time, the
price and the liability as they are; a call that only the manager may make means
nothing to the pool when somebody else makes it. A call that succeeds leaves the
pool that this call of the pool leaves, and one that fails leaves the books
(`perform_carries`). So what has been shown of the calls of a pool holds of those
of a pool in operation.
-/
import PooledCollateral.Proofs.Custody.Outcome

namespace PooledCollateral.Custody

open PooledCollateral.Action

variable {c : Custody} {α β : Type}

/-- The call of the pool that a call comes down to. -/
inductive Means (c : Custody) : Call → Pool.Call → Prop
  | enter (caller : Address) (collateral : ℕ) {price : Option Price}
      (hprice : (if c.pool.entryNeedsPrice then some <$> c.parties.manager.priceRatio
        else pure none) = .ok price) :
      Means c (.enter caller collateral) (.enter caller collateral price c.now)
  | exit (caller : Address) (shares : ℕ) (recipient : Option Address) {backing : Backing}
      (hbacking : c.parties.backingState = .ok backing) :
      Means c (.exit caller shares recipient) (.exit caller shares backing c.now)
  | selfCloseExit (caller : Address) (request : SelfCloseRequest) {backing : Backing}
      {plan : SelfClosePlan} (hbacking : c.parties.backingState = .ok backing)
      (hplan : c.pool.planSelfClose caller request.shares backing c.now = .ok plan) :
      Means c (.selfCloseExit caller request) (.applySelfClose caller plan c.now)
  | withdrawFees (caller : Address) (amount : ℕ) (recipient : Option Address) :
      Means c (.withdrawFees caller amount recipient) (.withdrawFees caller amount)
  | payFeeDebt (caller : Address) (amount : ℕ) :
      Means c (.payFeeDebt caller amount) (.payFeeDebt caller amount)
  | transfer (caller receiver : Address) (amount : ℕ) :
      Means c (.transfer caller receiver amount) (.transfer caller receiver amount c.now)
  | cleanup (holder : Address) (limit : ℕ) :
      Means c (.cleanup holder limit) (.cleanup holder limit c.now)
  | depositFees {caller : Address} (amount : ℕ) (hcaller : caller = c.parties.managerAccount) :
      Means c (.depositFees caller amount) (.depositFees amount)
  | receiveCollateral {caller : Address} (amount : ℕ)
      (hcaller : caller = c.parties.managerAccount) :
      Means c (.receiveCollateral caller amount) (.receiveCollateral amount)
  | payout {caller : Address} (holder recipient : Address) (collateral shares : ℕ)
      (hcaller : caller = c.parties.managerAccount) :
      Means c (.payout caller holder recipient collateral shares)
        (.payout holder collateral shares c.now)
  | updateSettings {caller : Address} (settings : Settings)
      (hcaller : caller = c.parties.managerAccount) :
      Means c (.updateSettings caller settings) (.updateSettings settings)

/-- The pool after a call that has succeeded: the one that a call of the pool
leaves. A clearing that could not be committed has succeeded too, and leaves the
books. -/
inductive Carried (c : Custody) (call : Call) (q : Pool) : Prop
  | made {made : Pool.Call} {reply : Pool.Reply} (hmeans : c.Means call made)
      (hrun : (Pool.perform made).run c.pool = .ok reply q)
  | notCommitted {holder : Address} {limit : ℕ} (hcall : call = .cleanup holder limit)
      (hbooks : q.books = c.pool.books)

/-- A success is carried by the pool, and a failure leaves the books. -/
def Carries (call : Call) (act : Action Custody α) : Prop :=
  ∀ c, act.Ensures c (fun _ c' => c.Carried call c'.pool) (fun _ c' => c'.pool.books = c.pool.books)

theorem Carries.reply {call : Call} {act : Action Custody α} (h : Carries call act)
    (answer : α → β) : Carries call (do return answer (← act)) := by
  intro c
  rw [ensures_bind]
  exact h c

/-- An action that succeeds goes on to answer. -/
theorem run_reply {σ : Type} {act : Action σ α} {s t : σ} {a : α} (h : act.run s = .ok a t)
    (answer : α → β) : EStateM.run (do return answer (← act)) s = .ok (answer a) t :=
  run_bind_eq_ok_iff.mpr ⟨a, t, h, rfl⟩

/-- A transaction that succeeds leaves the pool that its change leaves. -/
theorem transact_carried {touched : List Address} {change : Action Pool α}
    {deal : α → Action Errand β} (hchange : Always (Pool.Confined touched) change) :
    (transact touched change deal).Ensures c
      (fun r c' => change.run c.pool = .ok r.1 c'.pool)
      (fun _ c' => c'.pool.books = c.pool.books) := by
  refine ensures_transact hchange (fun _ _ _ hbooks _ => hbooks) fun a q _ hrun _ => ?_
  have hrestored := Pool.books_restore ((hchange c.pool).of_ok hrun)
  exact ensures_of_forall (fun _ _ => hrun) fun _ _ => hrestored

/-! ## Operations -/

theorem enter_carries (caller : Address) (collateral : ℕ) :
    Carries (.enter caller collateral) (enter caller collateral) := by
  refine fun c => ensures_timed fun m => ensures_concluded ?_
  have htransact : ∀ price,
      (if c.pool.entryNeedsPrice then some <$> c.parties.manager.priceRatio else pure none)
        = .ok price →
      (transact [caller] (do
          let receipt ← Pool.enter caller collateral price c.now
          c.parties.requireAllowance .collateral caller collateral
          return receipt)
        fun _ => Errand.pull .collateral caller collateral).Ensures { c with metrics := m }
        (fun _ c' => c.Carried (.enter caller collateral) c'.pool)
        (fun _ c' => c'.pool.books = c.pool.books) := by
    intro price hprice
    refine (transact_carried ?_).mono (fun _ _ hrun => ?_) fun _ _ hbooks => hbooks
    · exact (Pool.enter_confined _ _ _ _).bind fun _ => (always_lift _).bind fun _ => always_pure _
    · exact .made (.enter caller collateral hprice) (run_reply (run_of_checked hrun) _)
  simp only [ensures_bind, ensures_get, ensures_ite, ensures_map, ensures_lift, ensures_pure]
  refine ⟨fun hneeds => ⟨fun price hquoted => ?_, fun _ _ _ => trivial⟩, fun hneeds => ?_⟩
  · have hprice : (if c.pool.entryNeedsPrice then some <$> c.parties.manager.priceRatio
        else pure none) = .ok (some price) := by
      rw [if_pos hneeds, hquoted]
      rfl
    exact (htransact _ hprice).mono (fun _ _ h _ => h) fun _ _ h _ => h
  · have hprice : (if c.pool.entryNeedsPrice then some <$> c.parties.manager.priceRatio
        else pure none) = .ok none := if_neg hneeds
    exact (htransact _ hprice).mono (fun _ _ h _ => h) fun _ _ h _ => h

theorem exit_carries (caller : Address) (shares : ℕ) (recipient : Option Address) :
    Carries (.exit caller shares recipient) (exit caller shares recipient) := by
  refine fun c => ensures_timed fun m => ensures_concluded ?_
  simp only [ensures_bind, ensures_get, ensures_lift, ensures_pure]
  refine ⟨fun backing hbacking => ?_, fun _ _ _ => trivial⟩
  refine (transact_carried (Pool.exit_confined _ _ _ _)).mono (fun _ _ hrun _ => ?_)
    fun _ _ hbooks _ => hbooks
  exact .made (.exit caller shares recipient hbacking) (run_reply hrun _)

theorem selfCloseExit_carries (caller : Address) (request : SelfCloseRequest) :
    Carries (.selfCloseExit caller request) (selfCloseExit caller request) := by
  refine fun c => ensures_timed fun m => ensures_concluded ?_
  simp only [ensures_bind, ensures_get, ensures_lift, ensures_modify, ensures_pure]
  refine ⟨fun backing hbacking => ?_, fun _ _ _ => trivial⟩
  refine (transact_carried ?_).mono (fun r _ hrun _ => ?_) fun _ _ hbooks _ => hbooks
  · exact always_get.bind fun _ => (always_lift _).bind fun plan => (always_lift _).bind fun _ =>
      (Pool.applySelfClose_confined caller plan c.now).bind fun _ => always_pure _
  · obtain ⟨hplan, happly⟩ := applied_of_checked hrun
    exact .made (.selfCloseExit caller request hbacking hplan) (run_reply happly _)

theorem withdrawFees_carries (caller : Address) (amount : ℕ) (recipient : Option Address) :
    Carries (.withdrawFees caller amount recipient) (withdrawFees caller amount recipient) := by
  refine fun c => ensures_timed fun m => ensures_concluded ?_
  simp only [ensures_bind, ensures_pure]
  refine (transact_carried (Pool.withdrawFees_confined _ _)).mono (fun _ _ hrun _ => ?_)
    fun _ _ hbooks _ => hbooks
  exact .made (.withdrawFees caller amount recipient) (run_reply hrun _)

theorem payFeeDebt_carries (caller : Address) (amount : ℕ) :
    Carries (.payFeeDebt caller amount) (payFeeDebt caller amount) := by
  refine fun c => ensures_timed fun m => ensures_concluded ?_
  simp only [ensures_bind, ensures_get, ensures_pure]
  refine (transact_carried ((Pool.payFeeDebt_confined _ _).bind fun _ => always_lift _)).mono
    (fun _ _ hrun _ => ?_) fun _ _ hbooks _ => hbooks
  obtain ⟨_, _, hpay, hcheck⟩ := run_bind_eq_ok_iff.mp hrun
  obtain ⟨-, rfl⟩ := run_lift_eq_ok_iff.mp hcheck
  exact .made (.payFeeDebt caller amount) (run_reply hpay _)

theorem transfer_carries (caller receiver : Address) (amount : ℕ) :
    Carries (.transfer caller receiver amount) (transfer caller receiver amount) := by
  refine fun c => ensures_timed fun m => ensures_concluded ?_
  simp only [ensures_bind, ensures_get, ensures_pure]
  refine (transact_carried (Pool.transfer_confined _ _ _ _)).mono (fun _ _ hrun _ => ?_)
    fun _ _ hbooks _ => hbooks
  exact .made (.transfer caller receiver amount) (run_reply hrun _)

theorem cleanup_carries (holder : Address) (limit : ℕ) :
    Carries (.cleanup holder limit) (cleanup holder limit) := by
  refine fun c => ensures_cleanup ?_ ?_ ?_
  · exact fun _ _ hrun _ => .made (.cleanup holder limit) (run_reply hrun _)
  · exact fun _ _ _ hrun _ => .made (.cleanup holder limit) (run_reply hrun _)
  · exact fun _ _ hbooks _ => .notCommitted rfl hbooks

theorem payout_carries (caller holder recipient : Address) (collateral shares : ℕ) :
    Carries (.payout caller holder recipient collateral shares)
      (payout caller holder recipient collateral shares) := by
  refine fun c => ensures_timed fun m => ensures_concluded ?_
  simp only [ensures_bind, ensures_get, ensures_lift, ensures_pure]
  refine ⟨fun _ hcaller => ?_, fun _ _ _ => trivial⟩
  refine (transact_carried (Pool.payout_confined _ _ _ _)).mono (fun _ _ hrun _ => ?_)
    fun _ _ hbooks _ => hbooks
  exact .made (.payout holder recipient collateral shares (require_eq_ok_iff.mp hcaller))
    (run_reply hrun _)

/-- An administrative operation is carried by the change that it consists of. -/
theorem administer_carries {kind : OperationKind} {change : Action Pool Unit} {event : Event}
    {caller : Address} {call : Call} {made : Pool.Call}
    (hchange : Always (Pool.Confined []) change)
    (hmeans : ∀ c : Custody, caller = c.parties.managerAccount → c.Means call made)
    (hmade : Pool.perform made = do change; return .done) :
    Carries call (administer kind caller change event) := by
  refine fun c => ensures_concluded ?_
  simp only [ensures_bind, ensures_get, ensures_lift, ensures_pure]
  refine ⟨fun _ hcaller => ?_, fun _ _ _ => trivial⟩
  refine (transact_carried hchange).mono (fun _ _ hrun _ => ?_) fun _ _ hbooks _ => hbooks
  have hcarried := run_reply hrun fun _ => Pool.Reply.done
  rw [← hmade] at hcarried
  exact .made (hmeans c (require_eq_ok_iff.mp hcaller)) hcarried

/-- Every call that succeeds is carried by the pool, and every call that fails
leaves the books. -/
theorem perform_carries (call : Call) : Carries call (perform call) := by
  cases call with
  | enter => exact (enter_carries _ _).reply _
  | exit => exact (exit_carries _ _ _).reply _
  | selfCloseExit => exact (selfCloseExit_carries _ _).reply _
  | withdrawFees => exact (withdrawFees_carries _ _ _).reply _
  | payFeeDebt => exact (payFeeDebt_carries _ _).reply _
  | transfer => exact (transfer_carries _ _ _).reply _
  | cleanup => exact (cleanup_carries _ _).reply _
  | depositFees caller amount =>
    exact (administer_carries (Pool.depositFees_confined amount)
      (fun _ hcaller => .depositFees amount hcaller) rfl).reply _
  | receiveCollateral caller amount =>
    exact (administer_carries (Pool.receiveCollateral_confined amount)
      (fun _ hcaller => .receiveCollateral amount hcaller) rfl).reply _
  | payout => exact (payout_carries _ _ _ _ _).reply _
  | updateSettings caller settings =>
    exact (administer_carries (Pool.updateSettings_confined settings)
      (fun _ hcaller => .updateSettings settings hcaller) rfl).reply _

end PooledCollateral.Custody
