/-
PooledCollateral.Proofs.Custody.AuditTrail — the published events account for
the books.

An action that announces events is `Faithful` when the books move by what those
events post, and, where it fails, not at all. Every operation publishes what a
faithful action announces (`perform_publishes`): one that fails publishes nothing
and leaves the books alone. So in every run from a fresh pool each figure of the
books is the sum of what the events so far have posted to it (`books_of_events`).
-/
import Mathlib.Logic.Relation
import PooledCollateral.Proofs.Custody.Restart
import PooledCollateral.Proofs.Pool.Postings

namespace PooledCollateral.Custody

open PooledCollateral.Action

variable {c c' c₀ : Custody} {α β : Type}

/-! ## Records -/

/-- Between the two, events were published that account for what has become of
the books. -/
def Recorded (c c' : Custody) : Prop :=
  ∃ events, c'.events = c.events ++ events ∧ c.pool.books.Posted events c'.pool.books

/-- Nothing was published, and the books are the same. -/
def Unseen (c c' : Custody) : Prop := c'.events = c.events ∧ c'.pool.books = c.pool.books

theorem Unseen.recorded (h : c.Unseen c') : c.Recorded c' :=
  ⟨[], by rw [h.1, List.append_nil], h.2 ▸ c.pool.books.posted_nil⟩

instance : IsPreorder Custody Recorded where
  refl c := Unseen.recorded ⟨rfl, rfl⟩
  trans := by
    rintro c₁ c₂ c₃ ⟨events, hevents, hposted⟩ ⟨more, hmore, hposted'⟩
    exact ⟨events ++ more, by rw [hmore, hevents, List.append_assoc], hposted.trans hposted'⟩

/-- An action that succeeds with events to publish, which account for what it
has done to the books, or fails without having done anything to them. -/
def Faithful (act : Action Custody (α × List Event)) : Prop :=
  ∀ c, act.Ensures c
    (fun r c' => c'.events = c.events ∧ c.pool.books.Posted r.2 c'.pool.books)
    (fun _ c' => c.Unseen c')

/-- An action that publishes what accounts for what it has done to the books, or
fails unseen. -/
def Publishes (act : Action Custody α) : Prop :=
  ∀ c, act.Ensures c (fun _ c' => c.Recorded c') (fun _ c' => c.Unseen c')

theorem Faithful.concluded {kind : OperationKind} {act : Action Custody (α × List Event)}
    (h : Faithful act) : Publishes (concluded kind act) := by
  intro c
  refine ensures_concluded ((h c).mono (fun r c' hpost _ => ?_) fun _ _ hunseen _ => hunseen)
  obtain ⟨hevents, hposted⟩ := hpost
  exact ⟨r.2, congrArg (· ++ r.2) hevents, hposted⟩

theorem Publishes.timed {kind : OperationKind} {act : Action Custody α} (h : Publishes act) :
    Publishes (timed kind act) := by
  intro c
  unfold Custody.timed
  rw [ensures_bind, ensures_modify]
  exact h { c with metrics := c.metrics.timing kind }

/-- What an action answers is nothing to publish. -/
theorem Publishes.reply {act : Action Custody α} (h : Publishes act) (answer : α → β) :
    Publishes (do return answer (← act)) := by
  intro c
  rw [ensures_bind]
  exact h c

/-- A transaction publishes nothing by itself. If events are to be announced that
account for what its change does to the pool, it does just that, or nothing that
can be seen. -/
theorem transact_posted {touched : List Address} {change : Action Pool α}
    {deal : α → Action Errand β} {announced : α × β → List Event}
    (hchange : Always (Pool.Confined touched) change)
    (hposted : ∀ r q, change.run c.pool = .ok r.1 q →
      c.pool.books.Posted (announced r) q.books) :
    (transact touched change deal).Ensures c
      (fun r c' => c'.events = c.events ∧ c.pool.books.Posted (announced r) c'.pool.books)
      (fun _ c' => c.Unseen c') := by
  refine ensures_transact hchange (fun _ _ _ hbooks _ => ⟨rfl, hbooks⟩) fun a q _ hrun _ => ?_
  have hrestored := Pool.books_restore ((hchange c.pool).of_ok hrun)
  exact ensures_of_forall (fun b _ => ⟨rfl, hposted (a, b) q hrun⟩) fun _ _ => ⟨rfl, hrestored⟩

/-! ## Operations -/

theorem enter_publishes (caller : Address) (collateral : ℕ) :
    Publishes (enter caller collateral) := by
  refine Publishes.timed (Faithful.concluded fun c => ?_)
  have htransact : ∀ price,
      (transact [caller] (do
          let receipt ← Pool.enter caller collateral price c.now
          c.parties.requireAllowance .collateral caller collateral
          return receipt)
        fun _ => Errand.pull .collateral caller collateral).Ensures c
        (fun r c' => c'.events = c.events ∧ c.pool.books.Posted
          [.entered caller collateral r.1.shares r.1.feeDebt r.1.unlockTime] c'.pool.books)
        (fun _ c' => c.Unseen c') := by
    intro price
    refine transact_posted ?_ fun _ _ hrun => Pool.enter_posted (run_of_checked hrun)
    exact (Pool.enter_confined _ _ _ _).bind fun _ => (always_lift _).bind fun _ => always_pure _
  simp only [ensures_bind, ensures_get, ensures_ite, ensures_map, ensures_lift, ensures_pure]
  exact ⟨fun _ => ⟨fun price _ => htransact price, fun _ _ => ⟨rfl, rfl⟩⟩, fun _ => htransact none⟩

theorem exit_publishes (caller : Address) (shares : ℕ) (recipient : Option Address) :
    Publishes (exit caller shares recipient) := by
  refine Publishes.timed (Faithful.concluded fun c => ?_)
  simp only [ensures_bind, ensures_get, ensures_lift, ensures_pure]
  refine ⟨fun backing _ => ?_, fun _ _ => ⟨rfl, rfl⟩⟩
  exact transact_posted (Pool.exit_confined _ _ _ _) fun _ _ hrun => Pool.exit_posted hrun _

theorem selfCloseExit_publishes (caller : Address) (request : SelfCloseRequest) :
    Publishes (selfCloseExit caller request) := by
  refine Publishes.timed (Faithful.concluded fun c => ?_)
  simp only [ensures_bind, ensures_get, ensures_lift, ensures_modify, ensures_pure]
  refine ⟨fun backing _ => transact_posted ?_ fun r q hrun => ?_, fun _ _ => ⟨rfl, rfl⟩⟩
  · refine always_get.bind fun _ => (always_lift _).bind fun plan => ?_
    refine (always_lift _).bind fun _ => ?_
    exact (Pool.applySelfClose_confined caller plan c.now).bind fun _ => always_pure _
  · obtain ⟨hplan, happly⟩ := applied_of_checked hrun
    exact Pool.applySelfClose_posted hplan happly _ _

theorem withdrawFees_publishes (caller : Address) (amount : ℕ) (recipient : Option Address) :
    Publishes (withdrawFees caller amount recipient) := by
  refine Publishes.timed (Faithful.concluded fun c => ?_)
  simp only [ensures_bind, ensures_pure]
  exact transact_posted (Pool.withdrawFees_confined _ _) fun _ _ hrun =>
    Pool.withdrawFees_posted hrun _

theorem payFeeDebt_publishes (caller : Address) (amount : ℕ) :
    Publishes (payFeeDebt caller amount) := by
  refine Publishes.timed (Faithful.concluded fun c => ?_)
  simp only [ensures_bind, ensures_get, ensures_pure]
  refine transact_posted ((Pool.payFeeDebt_confined _ _).bind fun _ => always_lift _)
    fun _ _ hrun => ?_
  obtain ⟨_, _, hpay, hcheck⟩ := run_bind_eq_ok_iff.mp hrun
  obtain ⟨-, rfl⟩ := run_lift_eq_ok_iff.mp hcheck
  exact Pool.payFeeDebt_posted hpay

theorem transfer_publishes (caller receiver : Address) (amount : ℕ) :
    Publishes (transfer caller receiver amount) := by
  refine Publishes.timed (Faithful.concluded fun c => ?_)
  simp only [ensures_bind, ensures_get, ensures_pure]
  exact transact_posted (Pool.transfer_confined _ _ _ _) fun _ _ hrun => Pool.transfer_posted hrun

/-- A clearing of locks has no event. -/
theorem cleanup_publishes (holder : Address) (limit : ℕ) : Publishes (cleanup holder limit) := by
  refine fun c => ensures_cleanup ?_ ?_ ?_
  · exact fun _ _ hrun _ => ⟨[], (List.append_nil _).symm, Pool.cleanup_posted hrun⟩
  · exact fun _ _ _ hrun _ => ⟨[], (List.append_nil _).symm, Pool.cleanup_posted hrun⟩
  · exact fun _ _ hbooks _ => Unseen.recorded ⟨rfl, hbooks⟩

theorem payout_publishes (caller holder recipient : Address) (collateral shares : ℕ) :
    Publishes (payout caller holder recipient collateral shares) := by
  refine Publishes.timed (Faithful.concluded fun c => ?_)
  simp only [ensures_bind, ensures_get, ensures_lift, ensures_pure]
  refine ⟨fun _ _ => ?_, fun _ _ => ⟨rfl, rfl⟩⟩
  exact transact_posted (Pool.payout_confined _ _ _ _) fun _ _ hrun => Pool.payout_posted hrun _

/-- An administrative operation publishes its event if that says what its change
does. -/
theorem administer_publishes {kind : OperationKind} {change : Action Pool Unit} {event : Event}
    (hchange : Always (Pool.Confined []) change)
    (hposted : ∀ {p q : Pool}, change.run p = .ok () q → p.books.Posted [event] q.books)
    (caller : Address) : Publishes (administer kind caller change event) := by
  refine Faithful.concluded fun c => ?_
  simp only [ensures_bind, ensures_get, ensures_lift, ensures_pure]
  exact ⟨fun _ _ => transact_posted hchange fun _ _ hrun => hposted hrun, fun _ _ => ⟨rfl, rfl⟩⟩

/-- Every call publishes what it has done to the books; one that fails has done
nothing and publishes nothing. -/
theorem perform_publishes (call : Call) : Publishes (perform call) := by
  cases call with
  | enter caller collateral => exact (enter_publishes caller collateral).reply _
  | exit caller shares recipient => exact (exit_publishes caller shares recipient).reply _
  | selfCloseExit caller request => exact (selfCloseExit_publishes caller request).reply _
  | withdrawFees caller amount recipient =>
    exact (withdrawFees_publishes caller amount recipient).reply _
  | payFeeDebt caller amount => exact (payFeeDebt_publishes caller amount).reply _
  | transfer caller receiver amount => exact (transfer_publishes caller receiver amount).reply _
  | cleanup holder limit => exact (cleanup_publishes holder limit).reply _
  | depositFees caller amount =>
    exact (administer_publishes (Pool.depositFees_confined amount) Pool.depositFees_posted
      caller).reply _
  | receiveCollateral caller amount =>
    exact (administer_publishes (Pool.receiveCollateral_confined amount)
      Pool.receiveCollateral_posted caller).reply _
  | payout caller holder recipient collateral shares =>
    exact (payout_publishes caller holder recipient collateral shares).reply _
  | updateSettings caller settings =>
    exact (administer_publishes (Pool.updateSettings_confined settings) Pool.updateSettings_posted
      caller).reply _

/-! ## Runs -/

/-- An episode of a run: a call by anybody, successful or not, or something that
happens around the pool and touches neither the pool nor what it has published. -/
inductive Episode (c : Custody) : Custody → Prop
  | call (call : Call) : Episode c ((perform call).stateAfter c)
  | around (c' : Custody) (hpool : c'.pool = c.pool) (hevents : c'.events = c.events) :
      Episode c c'

/-- Whatever happens around a pool is an episode. -/
theorem episode_meet (c : Custody) (circumstance : Circumstance) :
    Episode c (c.meet circumstance) := by
  cases circumstance <;> exact .around _ rfl rfl

theorem Episode.recorded (h : Episode c c') : c.Recorded c' := by
  cases h with
  | call call =>
    have hafter : (perform call).Ensures c (fun _ c' => c.Recorded c')
        (fun _ c' => c.Recorded c') :=
      (perform_publishes call c).mono (fun _ _ h => h) fun _ _ h => h.recorded
    exact hafter.stateAfter
  | around _ hpool hevents => exact Unseen.recorded ⟨hevents, congrArg Pool.books hpool⟩

/-- What every episode records, a run records. -/
theorem recorded_of_run (h : Relation.ReflTransGen Episode c c') : c.Recorded c' := by
  induction h with
  | refl => exact refl_of Recorded c
  | tail _ hepisode ih => exact trans_of Recorded ih hepisode.recorded

/-- A fresh pool has nothing in its books. -/
theorem figure_of_fresh {settings : Settings} {p : Pool} (h : Pool.create settings = .ok p)
    (figure : Figure) : p.books.figure figure = 0 := by
  rw [Pool.books_create h]
  cases figure <;> rfl

/-- At every point of a run from a fresh pool, whoever called and whatever
failed, the collateral, the supply, the fees held and owed, and the shares and
the fee debt of each holder are the sums of what the published events post to
them. -/
theorem books_of_events {parties : Parties} {store : Store} {now : ℕ} {settings : Settings}
    (hempty : store.load = none) (hstart : start parties store now settings = .ok c₀)
    (hrun : Relation.ReflTransGen Episode c₀ c) (figure : Figure) :
    c.pool.books.figure figure = (c.events.map figure.posting).sum := by
  obtain ⟨p, hcreate, hreturn⟩ := Checked.bind_eq_ok_iff.mp hstart
  unfold poolOf at hcreate
  rw [hempty] at hcreate
  cases hreturn
  obtain ⟨events, hevents, hposted⟩ := recorded_of_run hrun
  rw [hposted figure, hevents, figure_of_fresh hcreate, zero_add, List.nil_append]
  rfl

/-! ## An audit -/

/-- A holder enters; the manager sends 40 units of fees and books them. -/
def funded : Custody :=
  (perform (.depositFees opened.parties.managerAccount 40)).stateAfter
    (((perform (.enter Pool.rich 1000)).stateAfter opened).meet
      (.mint .backing opened.parties.poolAccount 40))

/-- The holder asks for half of its collateral, which the manager refuses. It
approves the backing asset anew, and the manager refuses no longer. -/
def closed : Custody :=
  (perform halfOut).stateAfter
    ((((perform halfOut).stateAfter funded).meet (.approve .backing Pool.rich 200)).meet
      (.refuseRedemptions none))

/-- It sends shares to itself and to somebody else. -/
def audited : Custody :=
  (perform (.transfer Pool.rich Pool.poor 100)).stateAfter
    ((perform (.transfer Pool.rich Pool.rich 100)).stateAfter closed)

/-- What was refused and what moved nothing has no event; the exit has two, and
the 20 units of fees that its burn has used are in the second. -/
theorem audited_books :
    audited.events =
        [.entered Pool.rich 1000 1000 0 5, .feesDeposited 40,
          .exited Pool.rich Pool.rich 500 500 0 0, .selfCloseRedeemed Pool.rich 150 20 130 false,
          .transferred Pool.rich Pool.poor 100] ∧
      audited.pool.books.figure .feeReserve = (audited.events.map Figure.feeReserve.posting).sum ∧
      audited.pool.books.figure (.balanceOf Pool.rich) =
        (audited.events.map (Figure.balanceOf Pool.rich).posting).sum := by
  have hstart : start opened.parties opened.store 5 Pool.looseSettings = .ok opened := rfl
  have hfunded : Relation.ReflTransGen Episode opened funded :=
    ((Relation.ReflTransGen.single (.call _)).tail (episode_meet _ _)).tail (.call _)
  have hclosed : Relation.ReflTransGen Episode opened closed :=
    (((hfunded.tail (.call halfOut)).tail (episode_meet _ _)).tail (episode_meet _ _)).tail
      (.call halfOut)
  have hrun : Relation.ReflTransGen Episode opened audited :=
    (hclosed.tail (.call _)).tail (.call _)
  exact ⟨by decide +kernel, books_of_events rfl hstart hrun _, books_of_events rfl hstart hrun _⟩

end PooledCollateral.Custody
