/-
PooledCollateral.Proofs.Faultless — computations that never fault.

A fault is a quantity outside its range at a place that foresees no cause. A
computation is `Faultless` when it gives a result or is refused for a cause, and
an action when it does so from every state with a certain invariant and leaves
the invariant in place whatever the outcome, so that the next action can rely on
it. Sums, differences and products that are checked need no invariant; those of
256 bits need factors that are amounts, and the others bounds that their callers
have established.
-/
import PooledCollateral.Burn
import PooledCollateral.Proofs.Action
import PooledCollateral.Proofs.CollateralRatio
import PooledCollateral.Proofs.LockQueue

namespace PooledCollateral

/-! ## Computations -/

namespace Checked

variable {α β : Type}

/-- The computation gives a result or is refused for a cause. -/
def Faultless (x : Checked α) : Prop := x ≠ .error .fault

theorem faultless_of_ok {x : Checked α} {a : α} (h : x = .ok a) : Faultless x := by
  simp [Faultless, h]

theorem faultless_pure (a : α) : Faultless (pure a : Checked α) := faultless_of_ok rfl

theorem faultless_reject (cause : Rejection) : Faultless (reject cause : Checked α) := by
  simp [Faultless, reject]

theorem faultless_require {condition : Prop} [Decidable condition] {cause : Rejection} :
    Faultless (require condition cause) := by
  unfold require
  split
  · exact faultless_of_ok rfl
  · exact faultless_reject cause

/-- Of the second of two computations only the case in which the first has given
its result counts. -/
theorem Faultless.bind {x : Checked α} {f : α → Checked β} (hx : Faultless x)
    (hf : ∀ a, x = .ok a → Faultless (f a)) : Faultless (x >>= f) := by
  cases x with
  | ok a => exact hf a rfl
  | error e => exact fun h => hx (congrArg Except.error (Except.error.inj h))

theorem Faultless.error_ne {x : Checked α} {e : Failure} (hx : Faultless x) (he : x = .error e) :
    e ≠ .fault := fun h => hx (h ▸ he)

end Checked

open Checked

/-! ## Amounts -/

namespace Amount

variable {a b : ℕ}

theorem faultless_fit (n : ℕ) : Faultless (fit n) := by
  unfold fit
  split
  · exact faultless_of_ok rfl
  · exact faultless_reject _

theorem faultless_add (a b : ℕ) : Faultless (add a b) := faultless_fit _

theorem faultless_sub (a b : ℕ) : Faultless (sub a b) := by
  unfold sub
  split
  · exact faultless_of_ok rfl
  · exact faultless_reject _

theorem faultless_take (h : b ≤ a) : Faultless (take a b) :=
  faultless_of_ok (take_eq_ok_iff.mpr ⟨rfl, h⟩)

/-- Every partial product is checked. -/
theorem faultless_product (factors : List ℕ) : Faultless (product factors) := by
  unfold product
  generalize 1 = acc
  induction factors generalizing acc with
  | nil => exact faultless_pure acc
  | cons factor factors ih =>
    rw [List.foldlM_cons]
    refine Faultless.bind ?_ fun next _ => ih next
    split
    · exact faultless_of_ok rfl
    · exact faultless_reject _

theorem faultless_mulDiv (ha : a ≤ max) (hb : b ≤ max) (c : ℕ) : Faultless (mulDiv a b c) :=
  faultless_require.bind fun _ _ =>
    (faultless_of_ok (mul_of_le_max ha hb)).bind fun _ _ => faultless_fit _

theorem faultless_mulDivUp (ha : a ≤ max) (hb : b ≤ max) (c : ℕ) : Faultless (mulDivUp a b c) :=
  faultless_require.bind fun _ _ =>
    (faultless_of_ok (mul_of_le_max ha hb)).bind fun _ _ => faultless_fit _

theorem mulDiv_le_max {c q : ℕ} (h : mulDiv a b c = .ok q) : q ≤ max :=
  (mulDiv_eq_ok_iff.mp h).2.2.2

end Amount

/-! ## Ratios -/

namespace CollateralRatio

theorem faultless_backs (collateral : ℕ) (backing : Backing) (threshold : ℕ) :
    Faultless (backs collateral backing threshold) := by
  unfold backs
  split
  · exact faultless_pure true
  · exact (Amount.faultless_product _).bind fun _ _ => (Amount.faultless_product _).bind fun _ _ =>
      faultless_pure _

theorem faultless_notWorse (collateral liability collateral' liability' : ℕ) :
    Faultless (notWorse collateral liability collateral' liability') := by
  unfold notWorse
  split
  · exact faultless_pure true
  · split
    · exact faultless_pure false
    · exact (Amount.faultless_product _).bind fun _ _ =>
        (Amount.faultless_product _).bind fun _ _ => faultless_pure _

theorem faultless_maxBacked (collateral : ℕ) (price : Price) (threshold : ℕ) :
    Faultless (maxBacked collateral price threshold) :=
  (Amount.faultless_product _).bind fun _ _ => (Amount.faultless_product _).bind fun _ _ =>
    faultless_require.bind fun _ _ => faultless_pure _

/-- The ratio is defined where the comparison with a threshold fails: a liability
without worth is always backed. -/
theorem faultless_ratioBips {collateral threshold : ℕ} {backing : Backing}
    (h : ¬ Backed collateral backing threshold) : Faultless (ratioBips collateral backing) := by
  unfold ratioBips
  split
  · exact faultless_pure none
  · refine (Amount.faultless_product _).bind fun _ _ =>
      (Amount.faultless_product _).bind fun worth hworth => ?_
    have hpositive : worth ≠ 0 := by
      intro hzero
      have hproduct : backing.liability * backing.price.numerator = 0 := by
        simpa [hzero] using (Amount.product_ok hworth).symm
      refine h ?_
      rw [Backed, Nat.mul_assoc, hproduct, Nat.mul_zero]
      exact Nat.zero_le _
    rw [if_neg hpositive]
    exact faultless_pure _

end CollateralRatio

theorem Guard.faultless_exitRatio (collateralAfter supplyAfter : ℕ) (backing : Backing)
    (threshold : ℕ) : Faultless (exitRatio collateralAfter supplyAfter backing threshold) := by
  unfold exitRatio
  split
  · exact faultless_pure _
  · refine (CollateralRatio.faultless_backs _ _ _).bind fun backed hbacked => ?_
    cases backed with
    | true => exact faultless_pure _
    | false =>
      have hshort := (CollateralRatio.backs_ok hbacked).not.mp Bool.false_ne_true
      exact (CollateralRatio.faultless_ratioBips hshort).bind fun _ _ => faultless_reject _

/-- A liability that is an amount can be shared out. -/
theorem Burn.faultless_required {total share exitRatio : ℕ} {backing : Backing}
    (hliability : backing.liability ≤ Amount.max) (hshare : share ≤ Amount.max) :
    Faultless (required total share backing exitRatio) := by
  unfold required
  split
  · exact faultless_pure 0
  · refine (CollateralRatio.faultless_backs _ _ _).bind fun backed _ => ?_
    cases backed with
    | true =>
      exact (CollateralRatio.faultless_maxBacked _ _ _).bind fun _ _ => faultless_pure _
    | false =>
      exact (Amount.faultless_mulDivUp hliability hshare _).bind fun _ _ => faultless_pure _

/-! ## Locks -/

namespace LockQueue

theorem faultless_consumeExpired (q : LockQueue) (now amount : ℕ) :
    Faultless (q.consumeExpired now amount) := by
  obtain ⟨r, hrun⟩ := q.consumeExpired_run now amount
  exact faultless_of_ok hrun

theorem faultless_consumeLocked (q : LockQueue) (now amount : ℕ) :
    Faultless (q.consumeLocked now amount) := by
  obtain ⟨r, hrun⟩ := q.consumeLocked_run now amount
  exact faultless_of_ok hrun

end LockQueue

/-! ## Actions -/

namespace Action

variable {σ τ α β : Type} {inv : σ → Prop}

/-- From a state with the invariant, the action does not fault, and whatever its
outcome it leaves a state with the invariant. -/
def Faultless (inv : σ → Prop) (act : Action σ α) : Prop :=
  ∀ s, inv s → act.Ensures s (fun _ t => inv t) (fun failure t => failure ≠ .fault ∧ inv t)

theorem faultless_pure (a : α) : Faultless inv (pure a : Action σ α) := fun _ hs => hs

theorem Faultless.bind {x : Action σ β} {f : β → Action σ α} (hx : Faultless inv x)
    (hf : ∀ b, Faultless inv (f b)) : Faultless inv (x >>= f) := fun s hs =>
  ensures_bind.mpr ((hx s hs).mono (fun b t ht => hf b t ht) fun _ _ ht => ht)

/-- What is done with a state that has been read may rely on the invariant of
that state. -/
theorem faultless_get_bind {f : σ → Action σ α} (hf : ∀ s, inv s → Faultless inv (f s)) :
    Faultless inv (get >>= f) := fun s hs => ensures_bind.mpr (hf s hs s hs)

theorem faultless_lift_bind {x : Checked β} {f : β → Action σ α} (hx : Checked.Faultless x)
    (hf : ∀ b, x = .ok b → Faultless inv (f b)) : Faultless inv (liftM x >>= f) := fun s hs =>
  ensures_bind.mpr (ensures_lift.mpr ⟨fun b hb => hf b hb s hs, fun _ he => ⟨hx.error_ne he, hs⟩⟩)

theorem faultless_modify {f : σ → σ} (hf : ∀ s, inv s → inv (f s)) : Faultless inv (modify f) :=
  fun s hs => ensures_modify.mpr (hf s hs)

theorem faultless_onPart {view : σ → τ} {put : σ → τ → σ} {part : τ → Prop} {act : Action τ α}
    (hact : Faultless part act) (hview : ∀ s, inv s → part (view s))
    (hput : ∀ s t, inv s → part t → inv (put s t)) : Faultless inv (act.onPart view put) :=
  fun s hs => ensures_onPart.mpr ((hact (view s) (hview s hs)).mono (fun _ t ht => hput s t hs ht)
    fun _ t ht => ⟨ht.1, hput s t hs ht.2⟩)

/-- An action whose failures are all for a cause is faultless if it keeps the
invariant. -/
theorem faultless_of {act : Action σ α}
    (hfault : ∀ s, inv s → act.Ensures s (fun _ _ => True) (fun failure _ => failure ≠ .fault))
    (hinv : ∀ s, inv s → act.Ensures s (fun _ t => inv t) (fun _ t => inv t)) :
    Faultless inv act := by
  intro s hs
  exact ((hfault s hs).and (hinv s hs)).mono (fun _ _ h => h.2) fun _ _ h => h

theorem Faultless.failure?_ne {act : Action σ α} {s : σ} (h : Faultless inv act) (hs : inv s) :
    act.failure? s ≠ some .fault := fun hfault =>
  ((h s hs).of_error (run_of_failure hfault)).1 rfl

theorem Faultless.stateAfter {act : Action σ α} {s : σ} (h : Faultless inv act) (hs : inv s) :
    inv (act.stateAfter s) :=
  Ensures.stateAfter ((h s hs).mono (fun _ _ ht => ht) fun _ _ ht => ht.2)

end Action

end PooledCollateral
