/-
PooledCollateral.Proofs.Custody.Isolation — nobody's position is in anybody
else's hands.

A call that fails leaves every row, the caller's own included. Of a call that
succeeds, somebody who did not make it sees no more than shares that come in, or
ended locks of its own that are gone from the front (`Spared`), unless the manager
has paid it out. What only the manager may do is refused to everybody else, and
then nothing has happened. So shares leave a holder by its own calls or by a
payout, and debt comes by its own calls alone (`holders_isolated`).
-/
import PooledCollateral.Proofs.Custody.PoolCalls
import PooledCollateral.Proofs.LockQueue

namespace PooledCollateral.Custody

open PooledCollateral.Action Function

variable {c : Custody} {call : Call} {holder : Address} {q : Pool}

/-- What a call of somebody else who is not the manager leaves of a holder's
row. -/
inductive Spared (c : Custody) (call : Call) (holder : Address) : HolderRow → Prop
  | same : Spared c call holder (c.pool.holderRow holder)
  /-- A transfer raises the balance of its receiver, and nothing else. -/
  | received {caller : Address} {amount : ℕ} (hcall : call = .transfer caller holder amount) :
      Spared c call holder
        { c.pool.holderRow holder with balance := (c.pool.holderRow holder).balance + amount }
  /-- A clearing removes ended locks from the front, and nothing else. -/
  | cleared {limit : ℕ} {locks : List Lock} (hcall : call = .cleanup holder limit)
      (hcleared : LockQueue.Cleared c.now (c.pool.holderRow holder).locks locks) :
      Spared c call holder { c.pool.holderRow holder with locks }

/-- The calls that only the manager may make. -/
def Call.Administrative : Call → Prop
  | .depositFees _ _ => True
  | .receiveCollateral _ _ => True
  | .payout _ _ _ _ _ => True
  | .updateSettings _ _ => True
  | _ => False

/-- The call is a payout of the holder, made by the manager. -/
def PaysOut (c : Custody) (call : Call) (holder : Address) : Prop :=
  ∃ recipient collateral shares,
    call = .payout c.parties.managerAccount holder recipient collateral shares

/-- Whoever has not made the call is spared, or was paid out and owes what it
owed. -/
def SparedOrPaid (c : Custody) (call : Call) (holder : Address) (row : HolderRow) : Prop :=
  c.Spared call holder row ∨
    c.PaysOut call holder ∧ row.feeDebt = (c.pool.holderRow holder).feeDebt

/-! ## Rows -/

theorem spared_of_eq (h : q.holderRow holder = c.pool.holderRow holder) :
    c.Spared call holder (q.holderRow holder) :=
  h ▸ .same

theorem Spared.balance_le {row : HolderRow} (h : c.Spared call holder row) :
    (c.pool.holderRow holder).balance ≤ row.balance := by
  cases h with
  | same => exact le_rfl
  | received => exact Nat.le_add_right _ _
  | cleared => exact le_rfl

theorem Spared.feeDebt_eq {row : HolderRow} (h : c.Spared call holder row) :
    row.feeDebt = (c.pool.holderRow holder).feeDebt := by
  cases h <;> rfl

/-- The receiver of a transfer has its shares besides what it had. -/
theorem spared_of_transfer {caller receiver : Address} {amount : ℕ}
    (hrun : (Pool.transfer caller receiver amount c.now).run c.pool = .ok () q)
    (hholder : holder ≠ caller) :
    c.Spared (.transfer caller receiver amount) holder (q.holderRow holder) := by
  obtain ⟨_, _, -, -, -, -, ⟨-, hsame⟩ | ⟨-, -, _, -, hbooks⟩⟩ := Pool.transfer_ok hrun
  · exact spared_of_eq (hsame ▸ rfl)
  · have hrow := congrFun (congrArg Books.row hbooks) holder
    by_cases hreceiver : holder = receiver
    · subst hreceiver
      have hraised : q.holderRow holder = { c.pool.holderRow holder with
          balance := (c.pool.holderRow holder).balance + amount } := hrow.trans (update_self _ _ _)
      rw [hraised]
      exact .received rfl
    · exact spared_of_eq
        (hrow.trans ((update_of_ne hreceiver _ _).trans (update_of_ne hholder _ _)))

theorem spared_of_cleanup {cleared : Address} {limit : ℕ} {done : Bool}
    (hrun : (Pool.cleanup cleared limit c.now).run c.pool = .ok done q) :
    c.Spared (.cleanup cleared limit) holder (q.holderRow holder) := by
  have hrow := congrFun (congrArg Books.row (Pool.cleanup_ok hrun)) holder
  by_cases hcleared : holder = cleared
  · subst hcleared
    have hdropped : q.holderRow holder = { c.pool.holderRow holder with
        locks := LockQueue.dropExpired c.now limit (c.pool.holderRow holder).locks } :=
      hrow.trans (update_self _ _ _)
    rw [hdropped]
    exact .cleared rfl (LockQueue.cleared_dropExpired c.now limit _)
  · exact spared_of_eq (hrow.trans (update_of_ne hcleared _ _))

theorem Carried.sparedOrPaid (h : c.Carried call q) (hholder : call.caller? ≠ some holder) :
    c.SparedOrPaid call holder (q.holderRow holder) := by
  cases h with
  | notCommitted _ hbooks =>
    exact Or.inl (spared_of_eq (congrFun (congrArg Books.row hbooks) holder))
  | made hmeans hrun =>
    have hoff := ((Pool.perform_confined _ c.pool).of_ok hrun).off holder
    have hcaller : ∀ {caller}, call.caller? = some caller → holder ∉ [caller] := by
      rintro caller hcall hmem
      rw [List.mem_singleton] at hmem
      exact hholder (hmem ▸ hcall)
    cases hmeans with
    | enter | exit | selfCloseExit | withdrawFees | payFeeDebt =>
      exact Or.inl (spared_of_eq (hoff (hcaller rfl)))
    | depositFees | receiveCollateral | updateSettings =>
      exact Or.inl (spared_of_eq (hoff List.not_mem_nil))
    | transfer caller receiver amount =>
      obtain ⟨_, _, htransfer, hreturn⟩ := run_bind_eq_ok_iff.mp hrun
      cases hreturn
      exact Or.inl (spared_of_transfer htransfer fun heq => hholder (heq ▸ rfl))
    | cleanup cleared limit =>
      obtain ⟨_, _, hcleanup, hreturn⟩ := run_bind_eq_ok_iff.mp hrun
      cases hreturn
      exact Or.inl (spared_of_cleanup hcleanup)
    | payout paid recipient collateral shares hmanager =>
      by_cases hpaid : holder = paid
      · subst hpaid
        obtain ⟨_, _, hpayout, hreturn⟩ := run_bind_eq_ok_iff.mp hrun
        cases hreturn
        obtain ⟨-, -, -, _, _, -, -, hbooks⟩ := Pool.payout_ok hpayout
        have hrow : q.holderRow holder = _ :=
          (congrFun (congrArg Books.row hbooks) holder).trans (update_self holder _ _)
        exact Or.inr ⟨⟨recipient, collateral, shares, hmanager ▸ rfl⟩, hrow ▸ rfl⟩
      · exact Or.inl (spared_of_eq (hoff fun hmem => hpaid (List.mem_singleton.mp hmem)))

theorem perform_spares (hholder : call.caller? ≠ some holder) :
    (perform call).Ensures c (fun _ c' => c.SparedOrPaid call holder (c'.pool.holderRow holder))
      (fun _ c' => c.SparedOrPaid call holder (c'.pool.holderRow holder)) :=
  (perform_carries call c).mono (fun _ _ hcarried => hcarried.sparedOrPaid hholder)
    fun _ _ hbooks => Or.inl (spared_of_eq (congrFun (congrArg Books.row hbooks) holder))

/-! ## Refusals -/

theorem requireManager_eq {p : Parties} {caller : Address} (h : caller ≠ p.managerAccount) :
    p.requireManager caller = .error (.rejected (.unauthorized caller)) := by
  simp [Parties.requireManager, require, reject, h]

/-- The caller is refused as not authorized, and nothing but the metrics knows of
it. -/
def Refuses {α : Type} (c : Custody) (caller : Address) (act : Action Custody α) : Prop :=
  act.Ensures c (fun _ _ => False)
    (fun failure c' => failure = .rejected (.unauthorized caller) ∧
      ∃ metrics, c' = { c with metrics })

theorem administer_refuses {caller : Address} (h : caller ≠ c.parties.managerAccount)
    (kind : OperationKind) (change : Action Pool Unit) (event : Event) :
    c.Refuses caller (administer kind caller change event) := by
  refine ensures_concluded ?_
  simp only [ensures_bind, ensures_get, ensures_lift, requireManager_eq h]
  refine ⟨by rintro _ ⟨⟩, ?_⟩
  rintro _ ⟨⟩ metrics
  exact ⟨rfl, metrics, rfl⟩

theorem payout_refuses {caller : Address} (h : caller ≠ c.parties.managerAccount)
    (holder recipient : Address) (collateral shares : ℕ) :
    c.Refuses caller (payout caller holder recipient collateral shares) := by
  refine ensures_timed fun m => ensures_concluded ?_
  simp only [ensures_bind, ensures_get, ensures_lift, requireManager_eq h]
  refine ⟨by rintro _ ⟨⟩, ?_⟩
  rintro _ ⟨⟩ metrics
  exact ⟨rfl, metrics, rfl⟩

theorem Refuses.reply {α β : Type} {caller : Address} {act : Action Custody α}
    (h : c.Refuses caller act) (answer : α → β) :
    c.Refuses caller (do return answer (← act)) := by
  unfold Refuses
  rw [ensures_bind]
  exact h.mono (fun _ _ => False.elim) fun _ _ hbad => hbad

/-- An administrative call by anybody but the manager is refused. -/
theorem perform_refuses {caller : Address} (hcall : call.Administrative)
    (hcaller : call.caller? = some caller) (h : caller ≠ c.parties.managerAccount) :
    c.Refuses caller (perform call) := by
  cases call with
  | depositFees | receiveCollateral | updateSettings =>
    cases hcaller
    exact (administer_refuses h _ _ _).reply _
  | payout =>
    cases hcaller
    exact (payout_refuses h _ _ _ _).reply _
  | _ => exact hcall.elim

/-! ## Every call -/

/-- What a call can do to whom. -/
structure Isolated (c : Custody) (call : Call) : Prop where
  /-- A failure changes nobody's row. -/
  failed : ∀ failure c', (perform call).run c = .error failure c' →
    ∀ holder, c'.pool.holderRow holder = c.pool.holderRow holder
  /-- A success of somebody who is not the manager spares everybody else. -/
  others : ∀ reply c', (perform call).run c = .ok reply c' →
    call.caller? ≠ some c.parties.managerAccount →
    ∀ holder, call.caller? ≠ some holder → c.Spared call holder (c'.pool.holderRow holder)
  /-- What only the manager may do is refused to anybody else, and leaves all but
  the metrics as it was. -/
  refused : call.Administrative → ∀ caller, call.caller? = some caller →
    caller ≠ c.parties.managerAccount →
    ∃ metrics, (perform call).run c
      = .error (.rejected (.unauthorized caller)) { c with metrics }
  /-- Shares leave a holder by its own calls, or when the manager pays it out. -/
  lowered : ∀ holder,
    ((perform call).stateAfter c).pool.balanceOf holder < c.pool.balanceOf holder →
      call.caller? = some holder ∨ c.PaysOut call holder
  /-- Debt comes to a holder by its own calls. -/
  indebted : ∀ holder, c.pool.debtOf holder < ((perform call).stateAfter c).pool.debtOf holder →
    call.caller? = some holder

/-- Whatever anybody does, with success or without, the position of everybody
else is left alone, but for shares that come in, ended locks that go, and payouts
by the manager. -/
theorem holders_isolated (c : Custody) (call : Call) : c.Isolated call := by
  have hafter : ∀ holder, call.caller? ≠ some holder →
      c.SparedOrPaid call holder (((perform call).stateAfter c).pool.holderRow holder) :=
    fun holder hholder => (perform_spares hholder).stateAfter
  constructor
  case failed =>
    intro failure c' hrun
    exact congrFun (congrArg Books.row ((perform_carries call c).of_error hrun))
  case others =>
    intro reply c' hrun hmanager holder hholder
    rcases (perform_spares hholder).of_ok hrun with hspared | ⟨hpaid, -⟩
    · exact hspared
    · obtain ⟨_, _, _, rfl⟩ := hpaid
      exact absurd rfl hmanager
  case refused =>
    intro hcall caller hcaller hother
    have hrefuses := perform_refuses hcall hcaller hother
    unfold Refuses Ensures at hrefuses
    cases hrun : EStateM.run (perform call) c with
    | ok reply c' => rw [hrun] at hrefuses; exact hrefuses.elim
    | error failure c' =>
      rw [hrun] at hrefuses
      obtain ⟨rfl, metrics, rfl⟩ := hrefuses
      exact ⟨metrics, rfl⟩
  case lowered =>
    intro holder hlower
    by_contra hnot
    obtain ⟨hholder, hpaid⟩ := not_or.mp hnot
    rcases hafter holder hholder with hspared | ⟨hpays, -⟩
    · exact absurd hspared.balance_le (Nat.not_le_of_lt hlower)
    · exact hpaid hpays
  case indebted =>
    intro holder hraise
    by_contra hholder
    have hsame : (((perform call).stateAfter c).pool.holderRow holder).feeDebt
        = (c.pool.holderRow holder).feeDebt := by
      rcases hafter holder hholder with hspared | ⟨-, hdebt⟩
      · exact hspared.feeDebt_eq
      · exact hdebt
    exact absurd hsame (Nat.ne_of_gt hraise)

end PooledCollateral.Custody
