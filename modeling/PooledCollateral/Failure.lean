/-
PooledCollateral.Failure — computations that can fail, with and without a state.

A computation fails in one of two ways: an operation is refused for a stated
cause, or an exact quantity leaves its range at a place where no cause is
foreseen. `Action σ α` is a computation on a state: when it fails, the state
keeps what was already done to it.
-/
import PooledCollateral.Rejection

namespace PooledCollateral

/-- How a computation fails. -/
inductive Failure
  /-- The operation is refused. -/
  | rejected (cause : Rejection)
  /-- A quantity left its range where none is expected to: a defect. -/
  | fault
  deriving DecidableEq

/-- A computation that can fail. -/
abbrev Checked (α : Type) := Except Failure α

/-- Refuses for a cause. -/
def reject {α : Type} (cause : Rejection) : Checked α := .error (.rejected cause)

/-- Refuses for a cause unless the condition holds. -/
def require (condition : Prop) [Decidable condition] (cause : Rejection) : Checked Unit :=
  if condition then .ok () else reject cause

@[simp] theorem require_eq_ok_iff {condition : Prop} [Decidable condition] {cause : Rejection}
    {u : Unit} : require condition cause = .ok u ↔ condition := by
  by_cases h : condition <;> simp [require, reject, h]

theorem require_eq_error_iff {condition : Prop} [Decidable condition] {cause : Rejection}
    {e : Failure} : require condition cause = .error e ↔ ¬ condition ∧ e = .rejected cause := by
  by_cases h : condition <;> simp [require, reject, h, eq_comm]

/-- Two computations in a row succeed if the first does and then the second. -/
theorem Checked.bind_eq_ok_iff {α β : Type} {x : Checked α} {f : α → Checked β} {b : β} :
    x >>= f = .ok b ↔ ∃ a, x = .ok a ∧ f a = .ok b := by
  cases x <;> simp [bind, Except.bind]

/-- Two computations in a row fail as the first does, or as the second after it. -/
theorem Checked.bind_eq_error_iff {α β : Type} {x : Checked α} {f : α → Checked β} {e : Failure} :
    x >>= f = .error e ↔ x = .error e ∨ ∃ a, x = .ok a ∧ f a = .error e := by
  cases x <;> simp [bind, Except.bind]

/-! ## Actions -/

/-- A computation on a state that can fail, and then keeps the state it reached. -/
abbrev Action (σ α : Type) := EStateM Failure σ α

namespace Action

variable {σ τ α β : Type}

/-- A computation that reads no state, as an action. -/
def ofChecked (x : Checked α) : Action σ α := fun s =>
  match x with
  | .ok a => .ok a s
  | .error e => .error e s

instance : MonadLift (Except Failure) (EStateM Failure σ) := ⟨ofChecked⟩

/-- The state that an action leaves behind, whether or not it succeeds. -/
def stateAfter (act : Action σ α) (s : σ) : σ :=
  match act.run s with
  | .ok _ t => t
  | .error _ t => t

/-- The outcome of an action. -/
def outcome (act : Action σ α) (s : σ) : Checked α :=
  match act.run s with
  | .ok a _ => .ok a
  | .error e _ => .error e

/-- Runs an action on a part of the state, read by `view` and put back by `put`. -/
def onPart (view : σ → τ) (put : σ → τ → σ) (act : Action τ α) : Action σ α := fun s =>
  match act.run (view s) with
  | .ok a t => .ok a (put s t)
  | .error e t => .error e (put s t)

/-! ## Running actions -/

@[simp] theorem run_lift_ok (a : α) (s : σ) :
    EStateM.run (liftM (Except.ok a : Checked α) : Action σ α) s = .ok a s := rfl

@[simp] theorem run_lift_error (e : Failure) (s : σ) :
    EStateM.run (liftM (Except.error e : Checked α) : Action σ α) s = .error e s := rfl

theorem run_onPart (view : σ → τ) (put : σ → τ → σ) (act : Action τ α) (s : σ) :
    EStateM.run (act.onPart view put) s =
      match act.run (view s) with
      | .ok a t => .ok a (put s t)
      | .error e t => .error e (put s t) := rfl

/-- Two actions in a row succeed if the first does and then the second. -/
theorem run_bind_eq_ok_iff {x : Action σ α} {f : α → Action σ β} {s t : σ} {b : β} :
    EStateM.run (x >>= f) s = .ok b t ↔
      ∃ a u, x.run s = .ok a u ∧ (f a).run u = .ok b t := by
  rw [EStateM.run_bind]
  cases hx : x.run s with
  | ok a u => simp [and_assoc]
  | error e u => simp

/-- A lifted computation succeeds with what it computes and leaves the state. -/
theorem run_lift_eq_ok_iff {x : Checked α} {s t : σ} {a : α} :
    EStateM.run (liftM x : Action σ α) s = .ok a t ↔ x = .ok a ∧ s = t := by
  cases x <;> simp

/-- An action on a part succeeds if it does so on the part. -/
theorem run_onPart_eq_ok_iff {view : σ → τ} {put : σ → τ → σ} {act : Action τ α} {s t : σ} {a : α} :
    EStateM.run (act.onPart view put) s = .ok a t ↔
      ∃ u, act.run (view s) = .ok a u ∧ put s u = t := by
  rw [run_onPart]
  cases hact : act.run (view s) with
  | ok a u => simp [and_assoc]
  | error e u => simp

end Action

end PooledCollateral
