/-
PooledCollateral.Proofs.Action — what an action ensures, on success and on
failure.

`act.Ensures s good bad` says that `act`, run on `s`, ends in a result and a
state for which `good` holds, or fails in a state for which `bad` holds: a
failed action keeps the state it reached, so the second half is about half-done
changes. One rule per way of building an action turns such a statement into
statements about the parts.

`act.Always r` is the case in which both halves say the same: whatever the
outcome, the state that `act` leaves stands in the relation `r` to the one it
found. For a preorder `r` it is enough to look at the parts one by one.
-/
import PooledCollateral.Failure
import Mathlib.Order.Defs.Unbundled

namespace PooledCollateral.Action

variable {σ τ α β : Type}

/-- What holds after an action: `good` of its result and state if it succeeds,
`bad` of the failure and the state it keeps if it does not. -/
def Ensures (act : Action σ α) (s : σ) (good : α → σ → Prop) (bad : Failure → σ → Prop) : Prop :=
  match act.run s with
  | .ok a t => good a t
  | .error e t => bad e t

section Rules

variable {s t : σ} {good : α → σ → Prop} {bad : Failure → σ → Prop}

/-! ## Rules -/

theorem ensures_pure {a : α} : Ensures (pure a) s good bad ↔ good a s := Iff.rfl

theorem ensures_throw {e : Failure} : Ensures (throw e : Action σ α) s good bad ↔ bad e s := Iff.rfl

theorem ensures_get {good : σ → σ → Prop} : Ensures get s good bad ↔ good s s := Iff.rfl

theorem ensures_set {good : PUnit → σ → Prop} : Ensures (set t) s good bad ↔ good ⟨⟩ t := Iff.rfl

theorem ensures_modify {f : σ → σ} {good : PUnit → σ → Prop} :
    Ensures (modify f) s good bad ↔ good ⟨⟩ (f s) := Iff.rfl

theorem ensures_bind {x : Action σ β} {f : β → Action σ α} :
    Ensures (x >>= f) s good bad ↔ x.Ensures s (fun b t => (f b).Ensures t good bad) bad := by
  unfold Ensures
  rw [EStateM.run_bind]
  cases x.run s <;> rfl

theorem ensures_map {x : Action σ β} {f : β → α} :
    Ensures (f <$> x) s good bad ↔ x.Ensures s (fun b t => good (f b) t) bad := by
  rw [map_eq_pure_bind, ensures_bind]
  rfl

theorem ensures_lift {x : Checked α} :
    Ensures (liftM x : Action σ α) s good bad ↔
      (∀ a, x = .ok a → good a s) ∧ (∀ e, x = .error e → bad e s) := by
  unfold Ensures
  cases x <;> simp

theorem ensures_onPart {view : σ → τ} {put : σ → τ → σ} {act : Action τ α} :
    (act.onPart view put).Ensures s good bad ↔
      act.Ensures (view s) (fun a t => good a (put s t)) (fun e t => bad e (put s t)) := by
  unfold Ensures
  rw [run_onPart]
  cases act.run (view s) <;> rfl

theorem ensures_ite {c : Prop} [Decidable c] {x y : Action σ α} :
    Ensures (if c then x else y) s good bad ↔
      (c → x.Ensures s good bad) ∧ (¬ c → y.Ensures s good bad) := by
  by_cases h : c <;> simp [h]

/-! ## Consequences -/

theorem Ensures.mono {act : Action σ α} {good' : α → σ → Prop} {bad' : Failure → σ → Prop}
    (h : act.Ensures s good bad) (hgood : ∀ a t, good a t → good' a t)
    (hbad : ∀ e t, bad e t → bad' e t) : act.Ensures s good' bad' := by
  unfold Ensures at h ⊢
  cases hrun : act.run s with
  | ok a t => rw [hrun] at h; exact hgood a t h
  | error e t => rw [hrun] at h; exact hbad e t h

/-- What an action ensures by two arguments it ensures together. -/
theorem Ensures.and {act : Action σ α} {good' : α → σ → Prop} {bad' : Failure → σ → Prop}
    (h : act.Ensures s good bad) (h' : act.Ensures s good' bad') :
    act.Ensures s (fun a t => good a t ∧ good' a t) (fun e t => bad e t ∧ bad' e t) := by
  unfold Ensures at h h' ⊢
  cases hrun : act.run s with
  | ok a t => rw [hrun] at h h'; exact ⟨h, h'⟩
  | error e t => rw [hrun] at h h'; exact ⟨h, h'⟩

theorem ensures_of_forall {act : Action σ α} (hgood : ∀ a t, good a t) (hbad : ∀ e t, bad e t) :
    act.Ensures s good bad := by
  unfold Ensures
  cases act.run s with
  | ok a t => exact hgood a t
  | error e t => exact hbad e t

/-- What an action ensures holds of every success. -/
theorem Ensures.of_ok {act : Action σ α} {a : α} (h : act.Ensures s good bad)
    (hrun : act.run s = .ok a t) : good a t := by
  unfold Ensures at h
  rwa [hrun] at h

/-- What an action ensures holds of every failure. -/
theorem Ensures.of_error {act : Action σ α} {e : Failure} (h : act.Ensures s good bad)
    (hrun : act.run s = .error e t) : bad e t := by
  unfold Ensures at h
  rwa [hrun] at h

/-- What an action ensures of its state alone holds of the state it leaves. -/
theorem Ensures.stateAfter {act : Action σ α} {good : σ → Prop}
    (h : act.Ensures s (fun _ t => good t) (fun _ t => good t)) : good (act.stateAfter s) := by
  unfold Ensures at h
  unfold Action.stateAfter
  cases hrun : act.run s with
  | ok a t => simpa [hrun] using h
  | error e t => simpa [hrun] using h

theorem stateAfter_of_ok {act : Action σ α} {a : α} (h : act.run s = .ok a t) :
    act.stateAfter s = t := by
  unfold Action.stateAfter
  rw [h]

/-- The failure of an action, if it fails. -/
def failure? (act : Action σ α) (s : σ) : Option Failure :=
  match act.run s with
  | .ok _ _ => none
  | .error e _ => some e

theorem run_of_failure {act : Action σ α} {e : Failure} (h : act.failure? s = some e) :
    act.run s = .error e (act.stateAfter s) := by
  unfold failure? at h
  unfold Action.stateAfter
  cases hrun : act.run s with
  | ok a t =>
    rw [hrun] at h
    cases h
  | error e' t =>
    rw [hrun] at h
    cases h
    rfl

theorem run_of_success {act : Action σ α} (h : act.failure? s = none) :
    ∃ a, act.run s = .ok a (act.stateAfter s) := by
  unfold failure? at h
  unfold Action.stateAfter
  cases hrun : act.run s with
  | ok a t => exact ⟨a, rfl⟩
  | error e t =>
    rw [hrun] at h
    cases h

theorem run_of_outcome {act : Action σ α} {a : α} (h : act.outcome s = .ok a) :
    act.run s = .ok a (act.stateAfter s) := by
  unfold outcome at h
  unfold Action.stateAfter
  cases hrun : act.run s with
  | ok a' t =>
    rw [hrun] at h
    cases h
    rfl
  | error e t =>
    rw [hrun] at h
    cases h

end Rules

/-! ## Whatever the outcome -/

/-- Whether or not it succeeds, the action leaves a state that stands in the
relation `r` to the one it found. -/
def Always (r : σ → σ → Prop) (act : Action σ α) : Prop :=
  ∀ s, act.Ensures s (fun _ t => r s t) (fun _ t => r s t)

section Preorder

variable {r : σ → σ → Prop} [IsPreorder σ r]

theorem always_pure (a : α) : Always r (pure a : Action σ α) := fun s => refl_of r s

theorem always_get : Always r (get : Action σ σ) := fun s => refl_of r s

theorem always_lift (x : Checked α) : Always r (liftM x : Action σ α) := fun s =>
  ensures_lift.mpr ⟨fun _ _ => refl_of r s, fun _ _ => refl_of r s⟩

theorem Always.bind {x : Action σ β} {f : β → Action σ α} (hx : Always r x)
    (hf : ∀ b, Always r (f b)) : Always r (x >>= f) := fun s =>
  ensures_bind.mpr <| (hx s).mono
    (fun b t hst => (hf b t).mono (fun _ _ htu => trans_of r hst htu) fun _ _ htu =>
      trans_of r hst htu)
    fun _ _ hst => hst

theorem Always.map {x : Action σ β} (hx : Always r x) (f : β → α) : Always r (f <$> x) := by
  rw [map_eq_pure_bind]
  exact hx.bind fun _ => always_pure _

/-- After a computation, only the case in which it has given its result counts. -/
theorem always_lift_bind {x : Checked β} {f : β → Action σ α}
    (hf : ∀ b, x = .ok b → Always r (f b)) : Always r ((liftM x : Action σ β) >>= f) := fun s =>
  ensures_bind.mpr <| ensures_lift.mpr ⟨fun b hb => hf b hb s, fun _ _ => refl_of r s⟩

end Preorder

end PooledCollateral.Action
