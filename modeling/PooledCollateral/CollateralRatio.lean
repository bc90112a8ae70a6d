/-
PooledCollateral.CollateralRatio — how well collateral backs a liability.

The ratio of a pool is its collateral over the value of its liability, counted
in bips (ten thousand to the whole). Comparisons multiply across and lose no
precision; only `ratioBips` and `maxBacked` divide, and both round down and
stop at the largest amount.
-/
import PooledCollateral.Price

namespace PooledCollateral

/-- Bips to the whole. -/
def bips : Nat := 10000

/-- What the manager reports about the pool's obligations. -/
structure Backing where
  /-- Backing asset in circulation that the pool answers for. -/
  liability : Nat
  price : Price
  deriving DecidableEq

namespace CollateralRatio

/-- The ratio in bips; a pool that owes nothing has none. A price of zero makes
the liability worthless, and the ratio is then not defined. -/
def ratioBips (collateral : Nat) (backing : Backing) : Checked (Option Nat) := do
  if backing.liability = 0 then return none
  let numerator ← Amount.product [collateral, backing.price.denominator, bips]
  let denominator ← Amount.product [backing.liability, backing.price.numerator]
  if denominator = 0 then throw .fault
  return some (min (numerator / denominator) Amount.max)

/-- Whether collateral backs a liability at `threshold` bips or better. -/
def backs (collateral : Nat) (backing : Backing) (threshold : Nat) : Checked Bool := do
  if backing.liability = 0 then return true
  let held ← Amount.product [collateral, backing.price.denominator, bips]
  let needed ← Amount.product [threshold, backing.liability, backing.price.numerator]
  return decide (needed ≤ held)

/-- Whether the ratio after a change is no worse than before it. The price is
the same on both sides and cancels out. -/
def notWorse (collateralBefore liabilityBefore collateralAfter liabilityAfter : Nat) :
    Checked Bool := do
  if liabilityAfter = 0 then return true
  if liabilityBefore = 0 then return false
  let after ← Amount.product [collateralAfter, liabilityBefore]
  let before ← Amount.product [collateralBefore, liabilityAfter]
  return decide (before ≤ after)

/-- The largest liability that collateral backs at `threshold` bips. -/
def maxBacked (collateral : Nat) (price : Price) (threshold : Nat) : Checked Nat := do
  let numerator ← Amount.product [collateral, price.denominator, bips]
  let denominator ← Amount.product [price.numerator, threshold]
  require (denominator ≠ 0) .overflow
  return min (numerator / denominator) Amount.max

end CollateralRatio

end PooledCollateral
