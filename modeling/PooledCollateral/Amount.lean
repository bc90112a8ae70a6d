/-
PooledCollateral.Amount — the arithmetic of amounts.

Amounts, times and counts are natural numbers; this module fixes the ranges in
which the pool keeps them and the operations that stay inside. Checked
operations refuse with `overflow`, saturating ones stop at the end of the
range, and `take` and `gather` are for places where the result is known to be
in range: there a result outside is a fault.
-/
import PooledCollateral.Failure

namespace PooledCollateral

/-- The largest time, in seconds. -/
def maxTime : Nat := 0xffffffff_ffffffff

/-- The largest value of an intermediate product. -/
def maxProduct : Nat :=
  0xffffffff_ffffffff_ffffffff_ffffffff_ffffffff_ffffffff_ffffffff_ffffffff

namespace Amount

/-- The largest amount. -/
def max : Nat := 0xffffffff_ffffffff_ffffffff_ffffffff

/-- Refuses a number above the largest amount. -/
def fit (n : Nat) : Checked Nat := if n ≤ max then .ok n else reject .overflow

/-- The sum of two amounts, refused above the largest amount. -/
def add (a b : Nat) : Checked Nat := fit (a + b)

/-- The difference of two amounts, refused below zero. -/
def sub (a b : Nat) : Checked Nat := if b ≤ a then .ok (a - b) else reject .overflow

/-- The sum of two amounts, stopped at the largest amount. -/
def addSaturating (a b : Nat) : Nat := min (a + b) max

/-- The product of two amounts, stopped at the largest amount. -/
def mulSaturating (a b : Nat) : Nat := min (a * b) max

/-- Takes `b` away from `a`, where `b` is known to be no more. -/
def take (a b : Nat) : Checked Nat := if b ≤ a then .ok (a - b) else .error .fault

/-- The sum of amounts, where it is known to be an amount. -/
def gather (amounts : List Nat) : Checked Nat :=
  let sum := amounts.foldl (· + ·) 0
  if sum ≤ max then .ok sum else .error .fault

/-- The product of factors, each partial product refused above the largest
product. -/
def product (factors : List Nat) : Checked Nat :=
  factors.foldlM (fun acc f => if acc * f ≤ maxProduct then .ok (acc * f) else reject .overflow) 1

/-- The product of two amounts, where it is known to be below the largest
product. -/
def mul (a b : Nat) : Checked Nat := if a * b ≤ maxProduct then .ok (a * b) else .error .fault

/-- `a * b / c` rounded down, refused above the largest amount. -/
def mulDiv (a b c : Nat) : Checked Nat := do
  require (c ≠ 0) .overflow
  fit ((← mul a b) / c)

/-- `a * b / c` rounded up, refused above the largest amount. -/
def mulDivUp (a b c : Nat) : Checked Nat := do
  require (c ≠ 0) .overflow
  let product ← mul a b
  fit (product / c + if product % c = 0 then 0 else 1)

/-! ## What success means -/

theorem fit_eq_ok_iff {n m : Nat} : fit n = .ok m ↔ m = n ∧ n ≤ max := by
  by_cases h : n ≤ max <;> simp [fit, reject, h, eq_comm]

theorem add_eq_ok_iff {a b c : Nat} : add a b = .ok c ↔ c = a + b ∧ a + b ≤ max := fit_eq_ok_iff

theorem sub_eq_ok_iff {a b c : Nat} : sub a b = .ok c ↔ c = a - b ∧ b ≤ a := by
  by_cases h : b ≤ a <;> simp [sub, reject, h, eq_comm]

theorem take_eq_ok_iff {a b c : Nat} : take a b = .ok c ↔ c = a - b ∧ b ≤ a := by
  by_cases h : b ≤ a <;> simp [take, h, eq_comm]

theorem mul_eq_ok_iff {a b c : Nat} : mul a b = .ok c ↔ c = a * b ∧ a * b ≤ maxProduct := by
  by_cases h : a * b ≤ maxProduct <;> simp [mul, h, eq_comm]

theorem mulDiv_eq_ok_iff {a b c q : Nat} :
    mulDiv a b c = .ok q ↔ c ≠ 0 ∧ a * b ≤ maxProduct ∧ q = a * b / c ∧ q ≤ max := by
  simp only [mulDiv, Checked.bind_eq_ok_iff, require_eq_ok_iff, mul_eq_ok_iff, fit_eq_ok_iff]
  constructor
  · rintro ⟨_, hc, _, ⟨rfl, hp⟩, rfl, hq⟩
    exact ⟨hc, hp, rfl, hq⟩
  · rintro ⟨hc, hp, rfl, hq⟩
    exact ⟨(), hc, _, ⟨rfl, hp⟩, rfl, hq⟩

theorem mulDivUp_eq_ok_iff {a b c q : Nat} :
    mulDivUp a b c = .ok q ↔
      c ≠ 0 ∧ a * b ≤ maxProduct ∧ q = a * b / c + (if a * b % c = 0 then 0 else 1) ∧ q ≤ max := by
  simp only [mulDivUp, Checked.bind_eq_ok_iff, require_eq_ok_iff, mul_eq_ok_iff, fit_eq_ok_iff]
  constructor
  · rintro ⟨_, hc, _, ⟨rfl, hp⟩, rfl, hq⟩
    exact ⟨hc, hp, rfl, hq⟩
  · rintro ⟨hc, hp, rfl, hq⟩
    exact ⟨(), hc, _, ⟨rfl, hp⟩, rfl, hq⟩

/-- The product of two amounts is never above the largest product. -/
theorem mul_of_le_max {a b : Nat} (ha : a ≤ max) (hb : b ≤ max) : mul a b = .ok (a * b) := by
  have h : a * b ≤ max * max := Nat.mul_le_mul ha hb
  have hmax : max * max ≤ maxProduct := by decide
  exact mul_eq_ok_iff.mpr ⟨rfl, Nat.le_trans h hmax⟩

end Amount

end PooledCollateral
