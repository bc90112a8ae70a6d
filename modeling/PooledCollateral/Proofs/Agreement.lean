/-
PooledCollateral.Proofs.Agreement — actions run side by side.

Two computations `Agree` when both succeed, with results that match, or both
fail in the same way. Two actions are `Paired` when on states that stand in a
relation they agree and leave states that stand in the relation again, also
where they fail. One rule per way of building a computation or an action turns
such a statement into statements about the parts.

An action that is paired with itself, with equal results, is `Blind`: it cannot
tell apart states that stand in the relation.
-/
import PooledCollateral.Failure

namespace PooledCollateral

variable {σ τ α β γ δ : Type}

/-! ## Computations -/

namespace Checked

/-- Both succeed, with results that match, or both fail in the same way. -/
inductive Agree (same : α → β → Prop) : Checked α → Checked β → Prop
  | ok {a : α} {b : β} (h : same a b) : Agree same (.ok a) (.ok b)
  | error (e : Failure) : Agree same (.error e) (.error e)

variable {same : α → β → Prop} {same' : γ → δ → Prop}

theorem agree_of_eq {x y : Checked α} (h : x = y) : Agree Eq x y := by
  subst h
  cases x with
  | ok a => exact .ok rfl
  | error e => exact .error e

theorem Agree.bind {x : Checked α} {y : Checked β} {f : α → Checked γ} {g : β → Checked δ}
    (h : Agree same x y) (hfg : ∀ a b, same a b → Agree same' (f a) (g b)) :
    Agree same' (x >>= f) (y >>= g) := by
  cases h with
  | ok h => exact hfg _ _ h
  | error e => exact .error e

end Checked

/-! ## Actions -/

namespace Action

/-- Both outcomes are successes with results that match, or the same failure;
the states stand in the relation. -/
inductive Agree (related : σ → σ → Prop) (same : α → β → Prop) :
    EStateM.Result Failure σ α → EStateM.Result Failure σ β → Prop
  | ok {a : α} {b : β} {s t : σ} (hsame : same a b) (hrelated : related s t) :
      Agree related same (.ok a s) (.ok b t)
  | error {s t : σ} (e : Failure) (hrelated : related s t) :
      Agree related same (.error e s) (.error e t)

/-- From states that stand in the relation, both actions come to outcomes that
agree. -/
def Paired (related : σ → σ → Prop) (same : α → β → Prop) (x : Action σ α) (y : Action σ β) :
    Prop :=
  ∀ s t, related s t → Agree related same (x.run s) (y.run t)

/-- An action that cannot tell apart states that stand in the relation. -/
def Blind (related : σ → σ → Prop) (act : Action σ α) : Prop := Paired related Eq act act

variable {related : σ → σ → Prop} {inner : τ → τ → Prop} {same : α → β → Prop}
  {same' : γ → δ → Prop}

/-! ## Rules -/

theorem paired_pure {a : α} {b : β} (h : same a b) :
    Paired related same (pure a : Action σ α) (pure b : Action σ β) := fun _ _ hst => .ok h hst

theorem paired_get : Paired related related (get : Action σ σ) (get : Action σ σ) :=
  fun _ _ hst => .ok hst hst

theorem paired_set {s t : σ} (h : related s t) :
    Paired related Eq (set s : Action σ PUnit) (set t : Action σ PUnit) := fun _ _ _ => .ok rfl h

theorem paired_modify {f g : σ → σ} (h : ∀ s t, related s t → related (f s) (g t)) :
    Paired related Eq (modify f : Action σ PUnit) (modify g : Action σ PUnit) :=
  fun s t hst => .ok rfl (h s t hst)

theorem paired_lift {x : Checked α} {y : Checked β} (h : x.Agree same y) :
    Paired related same (liftM x : Action σ α) (liftM y : Action σ β) := by
  intro s t hst
  cases h with
  | ok h => exact .ok h hst
  | error e => exact .error e hst

theorem Paired.bind {x : Action σ α} {y : Action σ β} {f : α → Action σ γ} {g : β → Action σ δ}
    (h : Paired related same x y) (hfg : ∀ a b, same a b → Paired related same' (f a) (g b)) :
    Paired related same' (x >>= f) (y >>= g) := by
  intro s t hst
  have hagree := h s t hst
  rw [EStateM.run_bind, EStateM.run_bind]
  generalize x.run s = r at hagree ⊢
  generalize y.run t = r' at hagree ⊢
  cases hagree with
  | ok hsame hrelated => exact hfg _ _ hsame _ _ hrelated
  | error e hrelated => exact .error e hrelated

/-- Actions on a part of the state are paired if they are paired on the part. -/
theorem Paired.onPart {view : σ → τ} {put : σ → τ → σ} {x : Action τ α} {y : Action τ β}
    (h : Paired inner same x y) (hview : ∀ s t, related s t → inner (view s) (view t))
    (hput : ∀ s t u v, related s t → inner u v → related (put s u) (put t v)) :
    Paired related same (x.onPart view put) (y.onPart view put) := by
  intro s t hst
  have hagree := h _ _ (hview s t hst)
  rw [run_onPart, run_onPart]
  generalize x.run (view s) = r at hagree ⊢
  generalize y.run (view t) = r' at hagree ⊢
  cases hagree with
  | ok hsame hrelated => exact .ok hsame (hput _ _ _ _ hst hrelated)
  | error e hrelated => exact .error e (hput _ _ _ _ hst hrelated)

/-- Two paired actions of which the second gets what the first has given. -/
theorem Paired.bind_eq {x y : Action σ α} {f g : α → Action σ γ} (h : Paired related Eq x y)
    (hfg : ∀ a, Paired related Eq (f a) (g a)) : Paired related Eq (x >>= f) (y >>= g) :=
  h.bind fun a _ hab => hab ▸ hfg a

/-- After a computation that reads no state, both actions go on with its result. -/
theorem paired_lift_bind {x : Checked α} {f g : α → Action σ γ}
    (hfg : ∀ a, Paired related Eq (f a) (g a)) :
    Paired related Eq ((liftM x : Action σ α) >>= f) ((liftM x : Action σ α) >>= g) :=
  (paired_lift (Checked.agree_of_eq rfl)).bind_eq hfg

/-- Nothing can be told apart if only equal states are related. -/
theorem blind_of_eq (act : Action σ α) : Blind Eq act := by
  intro s t hst
  subst hst
  cases act.run s with
  | ok a u => exact .ok rfl rfl
  | error e u => exact .error e rfl

/-! ## Consequences -/

theorem Blind.outcome_eq {act : Action σ α} (h : Blind related act) {s t : σ}
    (hst : related s t) : act.outcome s = act.outcome t := by
  have hagree := h s t hst
  unfold outcome
  generalize act.run s = r at hagree
  generalize act.run t = r' at hagree
  cases hagree with
  | ok hsame => rw [hsame]
  | error e => rfl

theorem Blind.stateAfter {act : Action σ α} (h : Blind related act) {s t : σ}
    (hst : related s t) : related (act.stateAfter s) (act.stateAfter t) := by
  have hagree := h s t hst
  unfold Action.stateAfter
  generalize act.run s = r at hagree
  generalize act.run t = r' at hagree
  cases hagree with
  | ok _ hrelated => exact hrelated
  | error _ hrelated => exact hrelated

end Action

end PooledCollateral
