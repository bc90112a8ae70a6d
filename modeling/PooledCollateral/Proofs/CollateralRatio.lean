/-
PooledCollateral.Proofs.CollateralRatio — ratios compared exactly.

`Backed` says that collateral backs a liability at a threshold, in exact
products; it is what the comparison of the pool decides where that gives an
answer (`backs_ok`). Two ratios are compared by multiplying across, which needs
no price (`notWorse_ok`). Between the two comparisons lies one fact in each
direction: what is no worse than a backed ratio is backed (`Backed.of_notWorse`),
and a backed ratio is no worse than one that is not (`notWorse_of_backed`). So
steps that are `Sustained` one by one are so together (`Sustained.trans`).
-/
import Mathlib.Algebra.BigOperators.Group.List.Basic
import Mathlib.Tactic.Ring
import PooledCollateral.Guard

namespace PooledCollateral

theorem Amount.product_ok {factors : List ℕ} {n : ℕ} (h : product factors = .ok n) :
    n = factors.prod := by
  have hfold : ∀ (factors : List ℕ) (acc : ℕ),
      factors.foldlM (fun acc f => if acc * f ≤ maxProduct then .ok (acc * f) else reject .overflow)
        acc = .ok n → n = acc * factors.prod := by
    intro factors
    induction factors with
    | nil =>
      intro acc hn
      cases hn
      simp
    | cons f rest ih =>
      intro acc hn
      rw [List.foldlM_cons] at hn
      obtain ⟨m, hm, hrest⟩ := Checked.bind_eq_ok_iff.mp hn
      split at hm
      · cases hm
        rw [ih _ hrest, List.prod_cons, Nat.mul_assoc]
      · cases hm
  rw [hfold factors 1 h, Nat.one_mul]

namespace CollateralRatio

variable {collateral collateral' liability liability' threshold : ℕ} {price : Price}
  {backing : Backing}

/-- The collateral backs the liability at `threshold` bips or better. -/
def Backed (collateral : ℕ) (backing : Backing) (threshold : ℕ) : Prop :=
  threshold * backing.liability * backing.price.numerator
    ≤ collateral * backing.price.denominator * bips

instance : Decidable (Backed collateral backing threshold) := Nat.decLe _ _

theorem backed_of_no_liability (h : backing.liability = 0) :
    Backed collateral backing threshold := by
  simp [Backed, h]

/-- The answer of the comparison is exact. -/
theorem backs_ok {answer : Bool} (h : backs collateral backing threshold = .ok answer) :
    answer = true ↔ Backed collateral backing threshold := by
  unfold backs at h
  split at h
  · rename_i hnone
    cases h
    simp [backed_of_no_liability hnone]
  · simp only [Checked.bind_eq_ok_iff] at h
    obtain ⟨held, hheld, needed, hneeded, hanswer⟩ := h
    cases hanswer
    rw [Amount.product_ok hheld, Amount.product_ok hneeded, decide_eq_true_iff]
    simp [Backed, Nat.mul_assoc]

/-- A ratio that passes for no worse is so. -/
theorem notWorse_ok (h : notWorse collateral liability collateral' liability' = .ok true) :
    collateral * liability' ≤ collateral' * liability := by
  unfold notWorse at h
  split at h
  · rename_i hnone
    simp [hnone]
  · split at h
    · cases h
    · simp only [Checked.bind_eq_ok_iff] at h
      obtain ⟨after, hafter, before, hbefore, hanswer⟩ := h
      have hle := of_decide_eq_true (Except.ok.inj hanswer)
      rw [Amount.product_ok hafter, Amount.product_ok hbefore] at hle
      simpa using hle

/-- More collateral for no more liability backs it all the more. -/
theorem Backed.mono (h : Backed collateral ⟨liability, price⟩ threshold)
    (hcollateral : collateral ≤ collateral') (hliability : liability' ≤ liability) :
    Backed collateral' ⟨liability', price⟩ threshold :=
  calc threshold * liability' * price.numerator
      ≤ threshold * liability * price.numerator := by gcongr
    _ ≤ collateral * price.denominator * bips := h
    _ ≤ collateral' * price.denominator * bips := by gcongr

/-- A ratio no worse than a backed one is backed, if the liability has not grown
from nothing. -/
theorem Backed.of_notWorse (h : Backed collateral ⟨liability, price⟩ threshold)
    (hliability : liability' ≤ liability)
    (hratio : collateral * liability' ≤ collateral' * liability) :
    Backed collateral' ⟨liability', price⟩ threshold := by
  rcases Nat.eq_zero_or_pos liability with hzero | hpos
  · exact backed_of_no_liability (Nat.le_zero.mp (hzero ▸ hliability))
  · have hbacked : threshold * liability * price.numerator
        ≤ collateral * price.denominator * bips := h
    refine Nat.le_of_mul_le_mul_left ?_ hpos
    calc liability * (threshold * liability' * price.numerator)
        = liability' * (threshold * liability * price.numerator) := by ring
      _ ≤ liability' * (collateral * price.denominator * bips) := by gcongr
      _ = (collateral * liability') * (price.denominator * bips) := by ring
      _ ≤ (collateral' * liability) * (price.denominator * bips) := by gcongr
      _ = liability * (collateral' * price.denominator * bips) := by ring

/-- A backed ratio is no worse than one that is not. -/
theorem notWorse_of_backed (h : ¬ Backed collateral ⟨liability, price⟩ threshold)
    (h' : Backed collateral' ⟨liability', price⟩ threshold) :
    collateral * liability' ≤ collateral' * liability := by
  have hshort : collateral * price.denominator * bips
      < threshold * liability * price.numerator := Nat.lt_of_not_le h
  have hbacked : threshold * liability' * price.numerator
      ≤ collateral' * price.denominator * bips := h'
  rcases Nat.eq_zero_or_pos (price.denominator * bips) with hworthless | hpos
  · -- collateral of no worth backs nothing, so that nothing can be owed
    have howed : threshold * liability * price.numerator ≠ 0 := Nat.ne_zero_of_lt hshort
    have hnone : threshold * liability' * price.numerator = 0 := by
      rw [Nat.mul_assoc collateral', hworthless, Nat.mul_zero] at hbacked
      exact Nat.le_zero.mp hbacked
    have hzero : liability' = 0 := by
      simp only [ne_eq, Nat.mul_eq_zero, not_or] at howed
      simpa [howed.1.1, howed.2] using hnone
    simp [hzero]
  · refine Nat.le_of_mul_le_mul_left ?_ hpos
    calc price.denominator * bips * (collateral * liability')
        = (collateral * price.denominator * bips) * liability' := by ring
      _ ≤ (threshold * liability * price.numerator) * liability' := by gcongr
      _ = (threshold * liability' * price.numerator) * liability := by ring
      _ ≤ (collateral' * price.denominator * bips) * liability := by gcongr
      _ = price.denominator * bips * (collateral' * liability) := by ring

/-- What was backed stays backed, what was not does not get worse, and no more is
owed than before. -/
structure Sustained (threshold : ℕ) (price : Price)
    (collateral liability collateral' liability' : ℕ) : Prop where
  backed : Backed collateral ⟨liability, price⟩ threshold →
    Backed collateral' ⟨liability', price⟩ threshold
  notWorse : ¬ Backed collateral ⟨liability, price⟩ threshold →
    collateral * liability' ≤ collateral' * liability
  liability_le : liability' ≤ liability

theorem sustained_of_le (hcollateral : collateral ≤ collateral') :
    Sustained threshold price collateral liability collateral' liability :=
  ⟨fun h => h.mono hcollateral (Nat.le_refl _), fun _ => Nat.mul_le_mul_right _ hcollateral,
    Nat.le_refl _⟩

theorem sustained_of_backed (hliability : liability' ≤ liability)
    (h : Backed collateral' ⟨liability', price⟩ threshold) :
    Sustained threshold price collateral liability collateral' liability' :=
  ⟨fun _ => h, fun hshort => notWorse_of_backed hshort h, hliability⟩

theorem sustained_of_notWorse (hliability : liability' ≤ liability)
    (hratio : collateral * liability' ≤ collateral' * liability) :
    Sustained threshold price collateral liability collateral' liability' :=
  ⟨fun h => h.of_notWorse hliability hratio, fun _ => hratio, hliability⟩

theorem Sustained.trans {collateral'' liability'' : ℕ}
    (h : Sustained threshold price collateral liability collateral' liability')
    (h' : Sustained threshold price collateral' liability' collateral'' liability'') :
    Sustained threshold price collateral liability collateral'' liability'' := by
  have hle := h'.liability_le.trans h.liability_le
  refine ⟨fun hbacked => h'.backed (h.backed hbacked), fun hshort => ?_, hle⟩
  by_cases hmiddle : Backed collateral' ⟨liability', price⟩ threshold
  · exact notWorse_of_backed hshort (h'.backed hmiddle)
  · rcases Nat.eq_zero_or_pos liability' with hnone | hpos
    · exact absurd (backed_of_no_liability hnone) hmiddle
    · refine Nat.le_of_mul_le_mul_left ?_ hpos
      calc liability' * (collateral * liability'')
          = (collateral * liability') * liability'' := by ring
        _ ≤ (collateral' * liability) * liability'' := Nat.mul_le_mul_right _ (h.notWorse hshort)
        _ = (collateral' * liability'') * liability := by ring
        _ ≤ (collateral'' * liability') * liability :=
          Nat.mul_le_mul_right _ (h'.notWorse hmiddle)
        _ = liability' * (collateral'' * liability) := by ring

end CollateralRatio

/-- A plain exit passes if nothing is owed, if the pool is empty, or if the comparison
says so. -/
theorem Guard.exitRatio_eq_ok_iff {collateralAfter supplyAfter threshold : ℕ} {backing : Backing}
    {u : Unit} :
    exitRatio collateralAfter supplyAfter backing threshold = .ok u ↔
      (backing.liability = 0 ∨ (supplyAfter = 0 ∧ collateralAfter = 0)) ∨
        CollateralRatio.backs collateralAfter backing threshold = .ok true := by
  unfold exitRatio
  split
  · rename_i hexempt
    exact ⟨fun _ => Or.inl hexempt, fun _ => rfl⟩
  · rename_i howed
    rw [or_iff_right howed, Checked.bind_eq_ok_iff]
    constructor
    · rintro ⟨backed, hbacks, h⟩
      cases backed with
      | true => exact hbacks
      | false =>
        obtain ⟨_, -, hrefused⟩ := Checked.bind_eq_ok_iff.mp h
        cases hrefused
    · intro hbacks
      exact ⟨true, hbacks, rfl⟩

/-- A plain exit that passes leaves an empty pool, or a liability that is
backed. -/
theorem Guard.exitRatio_ok {collateralAfter supplyAfter threshold : ℕ} {backing : Backing}
    {u : Unit} (h : exitRatio collateralAfter supplyAfter backing threshold = .ok u) :
    (supplyAfter = 0 ∧ collateralAfter = 0) ∨
      CollateralRatio.Backed collateralAfter backing threshold := by
  obtain (hnone | hempty) | hbacks := exitRatio_eq_ok_iff.mp h
  · exact Or.inr (CollateralRatio.backed_of_no_liability hnone)
  · exact Or.inl hempty
  · exact Or.inr ((CollateralRatio.backs_ok hbacks).mp rfl)

end PooledCollateral
