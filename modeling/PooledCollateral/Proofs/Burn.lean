/-
PooledCollateral.Proofs.Burn — a required burn is the least that will do.

A burn suffices when the ratio is `Sustained`: a liability that was backed at the
exit ratio is backed by what stays, and otherwise the ratio is no worse than
before. Which burns do so is a matter of one division in each case: the liability
that stays must lie within what the collateral that stays backs
(`le_maxBacked_iff`), or the burn must be as large a part of the liability as the
leaving collateral is of the whole (`mul_sub_le_iff`). The divisions of `required`
round to the least such burn (`required_isLeast`), and the comparisons of the guard
are exact (`notWorse_iff`), so that no burn that `required` finds is ever too small.
-/
import Mathlib.Order.Bounds.Basic
import PooledCollateral.Burn
import PooledCollateral.Proofs.CollateralRatio

namespace PooledCollateral

/-! ## Quotients rounded either way -/

/-- A quotient rounded up is the least number whose product covers the dividend. -/
theorem Amount.mulDivUp_le_iff {a b c q n : ℕ} (h : mulDivUp a b c = .ok q) :
    q ≤ n ↔ a * b ≤ c * n := by
  obtain ⟨hc, -, rfl, -⟩ := mulDivUp_eq_ok_iff.mp h
  have hpos := Nat.pos_of_ne_zero hc
  have hdivision := Nat.div_add_mod (a * b) c
  split
  · rename_i hexact
    rw [Nat.add_zero, ← Nat.mul_le_mul_left_iff hpos]
    omega
  · rename_i hrest
    rw [Nat.succ_le_iff, Nat.div_lt_iff_lt_mul hpos, Nat.mul_comm n]
    refine ⟨Nat.le_of_lt, fun hle => lt_of_le_of_ne hle fun heq => hrest ?_⟩
    rw [heq, Nat.mul_mod_right]

namespace CollateralRatio

variable {collateral collateral' liability liability' threshold allowed : ℕ} {price : Price}

/-- What is within the quotient of the collateral's worth by the price of backing
one unit is backed, and nothing else is. -/
theorem le_div_iff_backed (hprice : price.numerator * threshold ≠ 0) :
    liability ≤ collateral * price.denominator * bips / (price.numerator * threshold) ↔
      Backed collateral ⟨liability, price⟩ threshold := by
  rw [Nat.le_div_iff_mul_le (Nat.pos_of_ne_zero hprice), Backed]
  have hcomm : liability * (price.numerator * threshold)
      = threshold * liability * price.numerator := by ring
  rw [hcomm]

/-- The largest backed liability is a quotient, stopped at the largest amount. -/
theorem maxBacked_ok (h : maxBacked collateral price threshold = .ok allowed) :
    price.numerator * threshold ≠ 0 ∧
      allowed = min (collateral * price.denominator * bips / (price.numerator * threshold))
        Amount.max := by
  simp only [maxBacked, Checked.bind_eq_ok_iff, require_eq_ok_iff] at h
  obtain ⟨worth, hworth, unit, hunit, _, hunit_ne, hallowed⟩ := h
  cases hallowed
  have hworth_eq : worth = collateral * price.denominator * bips := by
    simpa [Nat.mul_assoc] using Amount.product_ok hworth
  have hunit_eq : unit = price.numerator * threshold := by simpa using Amount.product_ok hunit
  rw [← hworth_eq, ← hunit_eq]
  exact ⟨hunit_ne, rfl⟩

theorem backed_of_le_maxBacked (h : maxBacked collateral price threshold = .ok allowed)
    (hle : liability ≤ allowed) : Backed collateral ⟨liability, price⟩ threshold := by
  obtain ⟨hprice, rfl⟩ := maxBacked_ok h
  exact (le_div_iff_backed hprice).mp (hle.trans (Nat.min_le_left _ _))

/-- Stopping at the largest amount does not matter to a liability that is one. -/
theorem le_maxBacked_iff (h : maxBacked collateral price threshold = .ok allowed)
    (hliability : liability ≤ Amount.max) :
    liability ≤ allowed ↔ Backed collateral ⟨liability, price⟩ threshold := by
  obtain ⟨hprice, rfl⟩ := maxBacked_ok h
  rw [le_min_iff, le_div_iff_backed hprice, and_iff_left hliability]

/-- Where the liability has not grown the comparison of two ratios is exact. -/
theorem notWorse_iff {answer : Bool} (hle : liability' ≤ liability)
    (h : notWorse collateral liability collateral' liability' = .ok answer) :
    answer = true ↔ collateral * liability' ≤ collateral' * liability := by
  unfold notWorse at h
  split at h
  · rename_i hnone
    cases h
    simp [hnone]
  · rename_i hsome
    rw [if_neg (by omega)] at h
    simp only [Checked.bind_eq_ok_iff] at h
    obtain ⟨after, hafter, before, hbefore, hanswer⟩ := h
    cases hanswer
    rw [Amount.product_ok hafter, Amount.product_ok hbefore, decide_eq_true_iff]
    simp

/-- The ratio is no worse if the burn is as large a part of the liability as the
leaving collateral is of the whole. -/
theorem mul_sub_le_iff {total share burn : ℕ} (hshare : share ≤ total) :
    total * (liability - burn) ≤ (total - share) * liability ↔
      liability * share ≤ total * burn := by
  have hpart : share * liability ≤ total * liability := Nat.mul_le_mul_right _ hshare
  rw [Nat.mul_sub, Nat.sub_mul, Nat.mul_comm liability share]
  omega

end CollateralRatio

/-! ## Burns -/

namespace Burn

open CollateralRatio

variable {total share exitRatio burn : ℕ} {backing : Backing}

/-- With so much of the collateral gone and so much of the liability burned, the
collateral ratio has not suffered. -/
def Suffices (total share : ℕ) (backing : Backing) (exitRatio burn : ℕ) : Prop :=
  Sustained exitRatio backing.price total backing.liability (total - share)
    (backing.liability - burn)

/-- Of a backed liability the rest has to be backed. -/
theorem suffices_iff_of_backed (h : Backed total backing exitRatio) :
    Suffices total share backing exitRatio burn ↔
      Backed (total - share) ⟨backing.liability - burn, backing.price⟩ exitRatio :=
  ⟨fun hburn => hburn.backed h, sustained_of_backed (Nat.sub_le _ _)⟩

/-- Of a liability that is not backed a part has to go that is as large as the
leaving part of the collateral. -/
theorem suffices_iff_of_not_backed (h : ¬ Backed total backing exitRatio)
    (hshare : share ≤ total) :
    Suffices total share backing exitRatio burn ↔ backing.liability * share ≤ total * burn := by
  rw [← mul_sub_le_iff hshare]
  exact ⟨fun hburn => hburn.notWorse h, sustained_of_notWorse (Nat.sub_le _ _)⟩

/-- How a burn is sized when so much of the collateral leaves. -/
inductive Sized (total share : ℕ) (backing : Backing) (exitRatio : ℕ) : ℕ → Prop
  /-- Nothing is owed, or nothing leaves. -/
  | nothing (hnone : backing.liability = 0 ∨ share = 0) : Sized total share backing exitRatio 0
  /-- What exceeds the largest liability that the rest backs. -/
  | excess {allowed : ℕ} (hbacked : Backed total backing exitRatio)
      (hallowed : maxBacked (total - share) backing.price exitRatio = .ok allowed) :
      Sized total share backing exitRatio (backing.liability - allowed)
  /-- The part of the liability that the leaving collateral is of the whole. -/
  | part {part : ℕ} (hshort : ¬ Backed total backing exitRatio)
      (hpart : Amount.mulDivUp backing.liability share total = .ok part) :
      Sized total share backing exitRatio (min part backing.liability)

theorem required_sized (h : required total share backing exitRatio = .ok burn) :
    Sized total share backing exitRatio burn := by
  unfold required at h
  split at h
  · rename_i hnone
    cases h
    exact .nothing hnone
  · obtain ⟨backed, hbacks, h⟩ := Checked.bind_eq_ok_iff.mp h
    have hanswer := backs_ok hbacks
    cases backed with
    | true =>
      simp only [if_true, Checked.bind_eq_ok_iff] at h
      obtain ⟨allowed, hallowed, _, hexcess, hburn⟩ := h
      cases hexcess
      cases hburn
      rw [Nat.min_eq_left (Nat.sub_le _ _)]
      exact .excess (hanswer.mp rfl) hallowed
    | false =>
      simp only [Bool.false_eq_true, if_false, Checked.bind_eq_ok_iff] at h
      obtain ⟨part, hpart, hburn⟩ := h
      cases hburn
      exact .part (fun hbacked => Bool.false_ne_true (hanswer.mpr hbacked)) hpart

/-- No more has to leave circulation than is owed. -/
theorem required_le (h : required total share backing exitRatio = .ok burn) :
    burn ≤ backing.liability := by
  cases required_sized h with
  | nothing => exact Nat.zero_le _
  | excess => exact Nat.sub_le _ _
  | part => exact Nat.min_le_right _ _

/-- The required burn suffices. -/
theorem required_suffices (h : required total share backing exitRatio = .ok burn)
    (hshare : share ≤ total) : Suffices total share backing exitRatio burn := by
  cases required_sized h with
  | nothing hnone =>
    rcases hnone with hnone | rfl
    · exact sustained_of_backed (Nat.sub_le _ _) (backed_of_no_liability (by simp [hnone]))
    · exact sustained_of_le (Nat.le_refl total)
  | excess hbacked hallowed =>
    rw [suffices_iff_of_backed hbacked]
    exact backed_of_le_maxBacked hallowed (by omega)
  | @part part hshort hpart =>
    rw [suffices_iff_of_not_backed hshort hshare]
    have hcovers : backing.liability * share ≤ total * part :=
      (Amount.mulDivUp_le_iff hpart).mp (Nat.le_refl part)
    rcases Nat.le_total part backing.liability with hle | hle
    · rwa [Nat.min_eq_left hle]
    · rw [Nat.min_eq_right hle, Nat.mul_comm total]
      exact Nat.mul_le_mul_left _ hshare

/-- No smaller burn would do. -/
theorem required_le_of_suffices {enough : ℕ}
    (h : required total share backing exitRatio = .ok burn) (hshare : share ≤ total)
    (hliability : backing.liability ≤ Amount.max)
    (henough : Suffices total share backing exitRatio enough) : burn ≤ enough := by
  cases required_sized h with
  | nothing => exact Nat.zero_le enough
  | @excess allowed hbacked hallowed =>
    rw [suffices_iff_of_backed hbacked] at henough
    have hleft : backing.liability - enough ≤ Amount.max := (Nat.sub_le _ _).trans hliability
    have hkept : backing.liability - enough ≤ allowed :=
      (le_maxBacked_iff hallowed hleft).mpr henough
    omega
  | part hshort hpart =>
    rw [suffices_iff_of_not_backed hshort hshare] at henough
    exact (Nat.min_le_left _ _).trans ((Amount.mulDivUp_le_iff hpart).mpr henough)

/-- The required burn is the least that suffices. -/
theorem required_isLeast (h : required total share backing exitRatio = .ok burn)
    (hshare : share ≤ total) (hliability : backing.liability ≤ Amount.max) :
    IsLeast {enough | Suffices total share backing exitRatio enough} burn :=
  ⟨required_suffices h hshare, fun _ => required_le_of_suffices h hshare hliability⟩

end Burn

end PooledCollateral
