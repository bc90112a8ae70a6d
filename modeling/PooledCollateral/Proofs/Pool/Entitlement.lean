/-
PooledCollateral.Proofs.Pool.Entitlement — what each holder owns of the fees,
if nothing were rounded.

A holder's `entitlement` is its exact part of the virtual reserve, with its
credit and less its debt. Entitlements may be negative; a claim is the
entitlement rounded down, and never less than nothing (`claim_eq_floor`). In a
pool with shares they add up to the fees held (`sum_entitlement`).

The `overhang` of a pool is how far all holders together lie below zero, with
what the virtual reserve lacks once there are no shares. It is what the claims
may add up to beyond the fees held (`totalClaims_le`). An operation that does
not round leaves it or lowers it; how much a rounding may add is said per
operation in the module on the overhang.
-/
import PooledCollateral.Proofs.Pool.Effects
import Mathlib.Algebra.Order.Field.Rat
import Mathlib.Algebra.BigOperators.Field
import Mathlib.Data.Nat.Cast.Order.Field
import Mathlib.Data.Rat.Cast.Order
import Mathlib.Data.Rat.Floor
import Mathlib.Tactic.FieldSimp
import Mathlib.Tactic.Linarith
import Mathlib.Tactic.Positivity
import Mathlib.Tactic.Ring

namespace PooledCollateral

/-- A quotient rounded down lies below the exact one, by one less one part of
the divisor at most. -/
theorem floor_bounds (a : ℕ) {b : ℕ} (hb : b ≠ 0) :
    ((a / b : ℕ) : ℚ) ≤ a / b ∧ (a : ℚ) / b ≤ (a / b : ℕ) + (1 - 1 / b) := by
  refine ⟨Nat.cast_div_le, ?_⟩
  have hpositive : (0 : ℚ) < b := Nat.cast_pos.mpr (Nat.pos_of_ne_zero hb)
  have hmod : ((a + 1 : ℕ) : ℚ) ≤ (b * (a / b + 1) : ℕ) :=
    Nat.cast_le.mpr (Nat.lt_mul_div_succ a (Nat.pos_of_ne_zero hb))
  rw [div_le_iff₀ hpositive, add_mul, sub_mul, one_div_mul_cancel hpositive.ne']
  push_cast at hmod
  linarith

/-- A quotient rounded up covers the product, by less than one divisor. -/
theorem Amount.mulDivUp_covers {a b c n : ℕ} (h : mulDivUp a b c = .ok n) :
    a * b ≤ n * c ∧ n * c < a * b + c := by
  obtain ⟨hc, -, rfl, -⟩ := mulDivUp_eq_ok_iff.mp h
  have hdivision := Nat.div_add_mod (a * b) c
  have hmod := Nat.mod_lt (a * b) (Nat.pos_of_ne_zero hc)
  rw [Nat.add_mul, Nat.mul_comm _ c]
  split <;> omega

namespace Books

/-- Fees held plus all debt, less all credit: the virtual reserve, with a sign. -/
def netReserve (b : Books) : ℤ := b.totals.feeReserve + b.totals.feeDebt - b.totals.feeCredit

/-- What one share owns of the virtual reserve; nothing if there are no shares. -/
def perShare (b : Books) : ℚ := b.netReserve / b.totals.supply

/-- What a holder owns of the fees, if nothing were rounded. -/
def entitlement (b : Books) (holder : Address) : ℚ :=
  b.perShare * (b.row holder).balance + (b.row holder).feeCredit - (b.row holder).feeDebt

/-- How far a holder lies below zero. -/
def deficit (b : Books) (holder : Address) : ℚ := max 0 (-b.entitlement holder)

/-- What the virtual reserve lacks once there are no shares. -/
def uncovered (b : Books) : ℚ := if b.totals.supply = 0 then max 0 (-b.netReserve) else 0

/-- How far all holders together lie below zero. -/
noncomputable def overhang (b : Books) : ℚ := ∑ holder, b.deficit holder + b.uncovered

/-- The totals are the sums of the rows. -/
structure Balanced (b : Books) : Prop where
  supply_eq : b.totals.supply = ∑ holder, (b.row holder).balance
  debt_eq : b.totals.feeDebt = ∑ holder, (b.row holder).feeDebt
  credit_eq : b.totals.feeCredit = ∑ holder, (b.row holder).feeCredit

variable {b b' : Books} {holder : Address}

/-! ## Shares -/

theorem Balanced.balance_le (hb : b.Balanced) (holder : Address) :
    (b.row holder).balance ≤ b.totals.supply := by
  rw [hb.supply_eq]
  exact Finset.single_le_sum (f := fun k => (b.row k).balance) (fun _ _ => Nat.zero_le _)
    (Finset.mem_univ holder)

/-- Two holders together have no more than the supply. -/
theorem Balanced.balance_add_le (hb : b.Balanced) {i j : Address} (h : j ≠ i) :
    (b.row j).balance + (b.row i).balance ≤ b.totals.supply := by
  rw [hb.supply_eq, ← Finset.add_sum_erase Finset.univ _ (Finset.mem_univ i)]
  have hj := Finset.single_le_sum (f := fun k => (b.row k).balance) (fun _ _ => Nat.zero_le _)
    (Finset.mem_erase.mpr ⟨h, Finset.mem_univ j⟩)
  omega

theorem Balanced.sum_balance (hb : b.Balanced) :
    ∑ holder, ((b.row holder).balance : ℚ) = b.totals.supply := by
  rw [hb.supply_eq, Nat.cast_sum]

theorem perShare_of_supply_eq_zero (h : b.totals.supply = 0) : b.perShare = 0 := by
  simp [perShare, h]

theorem perShare_mul_supply (h : b.totals.supply ≠ 0) :
    b.perShare * b.totals.supply = b.netReserve := by
  have hsupply : (b.totals.supply : ℚ) ≠ 0 := Nat.cast_ne_zero.mpr h
  exact div_mul_cancel₀ _ hsupply

theorem perShare_nonneg (h : 0 ≤ b.netReserve) : 0 ≤ b.perShare := by
  unfold perShare
  positivity

/-! ## Entitlements -/

/-- What belongs to all holders: the fees held, but for the virtual reserve of a
pool without shares. -/
theorem sum_entitlement (hb : b.Balanced) :
    ∑ holder, b.entitlement holder
      = b.totals.feeReserve - if b.totals.supply = 0 then (b.netReserve : ℚ) else 0 := by
  have hdebt : ∑ holder, ((b.row holder).feeDebt : ℚ) = b.totals.feeDebt := by
    rw [hb.debt_eq, Nat.cast_sum]
  have hcredit : ∑ holder, ((b.row holder).feeCredit : ℚ) = b.totals.feeCredit := by
    rw [hb.credit_eq, Nat.cast_sum]
  simp only [entitlement, Finset.sum_sub_distrib, Finset.sum_add_distrib, ← Finset.mul_sum,
    hb.sum_balance, hdebt, hcredit]
  split
  · rename_i hsupply
    simp only [hsupply, netReserve]
    push_cast
    ring
  · rename_i hsupply
    rw [perShare_mul_supply hsupply, netReserve]
    push_cast
    ring

/-- A holder whose row stays moves with the value of a share. -/
theorem entitlement_of_row (h : b'.row holder = b.row holder) :
    b'.entitlement holder
      = b.entitlement holder + (b'.perShare - b.perShare) * (b.row holder).balance := by
  unfold entitlement
  rw [h]
  ring

theorem deficit_nonneg (b : Books) (holder : Address) : 0 ≤ b.deficit holder := le_max_left _ _

theorem uncovered_nonneg (b : Books) : 0 ≤ b.uncovered := by
  unfold uncovered
  split
  · exact le_max_left _ _
  · exact le_refl _

theorem neg_entitlement_le_deficit (b : Books) (holder : Address) :
    -b.entitlement holder ≤ b.deficit holder := le_max_right _ _

/-- The positive part of an entitlement. -/
theorem entitlement_add_deficit (b : Books) (holder : Address) :
    b.entitlement holder + b.deficit holder = max 0 (b.entitlement holder) := by
  unfold deficit
  rcases le_total 0 (b.entitlement holder) with h | h
  · rw [max_eq_left (by linarith), max_eq_right h]
    ring
  · rw [max_eq_right (by linarith), max_eq_left h]
    ring

theorem deficit_le_of_entitlement {k : ℚ} (hk : 0 ≤ k)
    (h : b.entitlement holder - k ≤ b'.entitlement holder) :
    b'.deficit holder ≤ b.deficit holder + k := by
  have hold := neg_entitlement_le_deficit b holder
  exact max_le (add_nonneg (deficit_nonneg b holder) hk) (by linarith)

theorem deficit_le_overhang (b : Books) (holder : Address) : b.deficit holder ≤ b.overhang := by
  have hsum := Finset.single_le_sum (f := b.deficit) (fun j _ => deficit_nonneg b j)
    (Finset.mem_univ holder)
  have huncovered := uncovered_nonneg b
  unfold overhang
  linarith

/-! ## Comparing overhangs -/

theorem overhang_mono (hdeficit : ∀ j, b'.deficit j ≤ b.deficit j)
    (huncovered : b'.uncovered ≤ b.uncovered) : b'.overhang ≤ b.overhang :=
  add_le_add (Finset.sum_le_sum fun j _ => hdeficit j) huncovered

/-- The overhang after a change of one holder, when each of the others loses at
most `e` of its entitlement. -/
theorem overhang_le_of_loss {i : Address} {e : Address → ℚ} {k : ℚ} (he : ∀ j, 0 ≤ e j)
    (hoff : ∀ j, j ≠ i → b.entitlement j - e j ≤ b'.entitlement j)
    (hi : b'.deficit i + b'.uncovered + (∑ j, e j - e i) ≤ b.deficit i + b.uncovered + k) :
    b'.overhang ≤ b.overhang + k := by
  have hsum : ∑ j, b'.deficit j
      ≤ ∑ j, b.deficit j + ∑ j, e j + (b'.deficit i - b.deficit i - e i) :=
    sum_le_of_off i fun j hj => deficit_le_of_entitlement (he j) (hoff j hj)
  unfold overhang
  linarith

/-- The overhang after a change of one holder that takes nothing from the others. -/
theorem overhang_le_of_off {i : Address} {k : ℚ}
    (hoff : ∀ j, j ≠ i → b.entitlement j ≤ b'.entitlement j)
    (hi : b'.deficit i + b'.uncovered ≤ b.deficit i + b.uncovered + k) :
    b'.overhang ≤ b.overhang + k :=
  overhang_le_of_loss (fun _ => le_refl 0) (fun j hj => by simpa using hoff j hj)
    (by simpa using hi)

/-- The overhang after a change that takes no more than `k` from one holder and
nothing from the others. -/
theorem overhang_le_of_keeps {i : Address} {k : ℚ} (hk : 0 ≤ k)
    (hoff : ∀ j, j ≠ i → b.entitlement j ≤ b'.entitlement j)
    (hkeeps : b.entitlement i - k ≤ b'.entitlement i) (hcovered : b'.uncovered ≤ b.uncovered) :
    b'.overhang ≤ b.overhang + k := by
  have hdeficit := deficit_le_of_entitlement hk hkeeps
  refine overhang_le_of_off hoff ?_
  linarith

end Books

namespace Pool

theorem Sound.balanced {p : Pool} (h : p.Sound) : p.books.Balanced :=
  ⟨h.supply_eq_sum, h.debt_eq_sum, h.credit_eq_sum⟩

variable {p : Pool} {holder : Address}

/-! ## Claims -/

theorem netReserve_eq_sub (h : p.fees.totalCredit ≤ p.feeReserve + p.fees.totalDebt) :
    p.books.netReserve = (p.feeReserve + p.fees.totalDebt - p.fees.totalCredit : ℕ) := by
  rw [Nat.cast_sub h]
  push_cast
  rfl

/-- What shares are worth is their part of the virtual reserve. -/
theorem perShare_mul_eq_div (hcredit : p.fees.totalCredit ≤ p.feeReserve + p.fees.totalDebt)
    (shares : ℕ) :
    p.books.perShare * shares
      = ((p.feeReserve + p.fees.totalDebt - p.fees.totalCredit) * shares : ℕ)
        / p.shares.supply := by
  rw [Books.perShare, netReserve_eq_sub hcredit]
  push_cast
  exact div_mul_eq_mul_div _ _ _

/-- A virtual reserve that is not zero gives every share a value. -/
theorem perShare_ne_zero {reserve : ℕ} (hsupply : p.shares.supply ≠ 0)
    (hreserve : p.fees.virtualReserve p.feeReserve = .ok reserve) (hsome : reserve ≠ 0) :
    p.books.perShare ≠ 0 := by
  obtain ⟨rfl, -, hcredit⟩ := virtualReserve_eq_ok_iff.mp hreserve
  rw [Books.perShare, netReserve_eq_sub hcredit, Int.cast_natCast]
  exact div_ne_zero (Nat.cast_ne_zero.mpr hsome) (Nat.cast_ne_zero.mpr hsupply)

/-- A slice is the exact part of the virtual reserve, rounded down. -/
theorem slice_bounds {shares slice : ℕ}
    (h : p.fees.slice p.feeReserve shares p.shares.supply = .ok slice) :
    (slice : ℚ) ≤ p.books.perShare * shares ∧ p.books.perShare * shares < slice + 1 := by
  obtain ⟨hsupply | hshares, rfl⟩ | ⟨hsupply, -, hcredit, rfl⟩ := slice_ok h
  · rw [Books.perShare_of_supply_eq_zero hsupply]
    norm_num
  · rw [hshares]
    norm_num
  · have hpositive : (0 : ℚ) < 1 / p.shares.supply := by positivity
    obtain ⟨hlow, hhigh⟩ := floor_bounds
      ((p.feeReserve + p.fees.totalDebt - p.fees.totalCredit) * shares) hsupply
    rw [perShare_mul_eq_div hcredit]
    exact ⟨hlow, by linarith⟩

theorem entitlement_eq (p : Pool) (holder : Address) :
    p.books.entitlement holder
      = p.books.perShare * p.balanceOf holder + p.creditOf holder - p.debtOf holder := rfl

/-- Slice and credit cover the debt of a holder exactly if it does not lie below zero;
that the slice is rounded down does not matter. -/
theorem covered_iff {slice : ℕ}
    (hslice : p.fees.slice p.feeReserve (p.balanceOf holder) p.shares.supply = .ok slice) :
    p.debtOf holder ≤ slice + p.creditOf holder ↔ 0 ≤ p.books.entitlement holder := by
  obtain ⟨hlow, hhigh⟩ := slice_bounds hslice
  rw [entitlement_eq]
  constructor
  · intro hcovered
    have hdebt : (p.debtOf holder : ℚ) ≤ slice + p.creditOf holder := by exact_mod_cast hcovered
    linarith
  · intro hnonneg
    have hdebt : (p.debtOf holder : ℚ) < slice + p.creditOf holder + 1 := by linarith
    exact Nat.le_of_lt_succ (by exact_mod_cast hdebt)

/-- A claim is the entitlement rounded down, and nothing if that is below zero. -/
theorem claim_eq_floor {claim : ℕ} (h : p.claim holder = .ok claim) :
    claim = ⌊p.books.entitlement holder⌋₊ := by
  obtain ⟨slice, hslice, rfl⟩ := claim_ok h
  obtain hlt | hle := Nat.lt_or_ge (slice + p.creditOf holder) (p.debtOf holder)
  · have hneg : p.books.entitlement holder < 0 :=
      not_le.mp fun hnonneg => hlt.not_ge ((covered_iff hslice).mpr hnonneg)
    rw [Nat.sub_eq_zero_of_le hlt.le, Nat.floor_of_nonpos hneg.le]
  · obtain ⟨hlow, hhigh⟩ := slice_bounds hslice
    have hclaim : ((slice + p.creditOf holder - p.debtOf holder : ℕ) : ℚ)
        = slice + p.creditOf holder - p.debtOf holder := by
      rw [Nat.cast_sub hle, Nat.cast_add]
    have hnonneg : (0 : ℚ) ≤ slice + p.creditOf holder - p.debtOf holder :=
      hclaim ▸ Nat.cast_nonneg _
    refine ((Nat.floor_eq_iff ((covered_iff hslice).mp hle)).mpr ?_).symm
    rw [hclaim, entitlement_eq]
    exact ⟨by linarith, by linarith⟩

/-- A claim is at most the positive part of the entitlement. -/
theorem claim_le {claim : ℕ} (h : p.claim holder = .ok claim) :
    (claim : ℚ) ≤ p.books.entitlement holder + p.books.deficit holder := by
  rw [Books.entitlement_add_deficit, claim_eq_floor h]
  calc (⌊p.books.entitlement holder⌋₊ : ℚ)
      ≤ ⌊max 0 (p.books.entitlement holder)⌋₊ := Nat.cast_le.mpr (Nat.floor_mono (le_max_right _ _))
    _ ≤ max 0 (p.books.entitlement holder) := Nat.floor_le (le_max_left _ _)

end Pool

end PooledCollateral
