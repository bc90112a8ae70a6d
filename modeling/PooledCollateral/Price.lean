/-
PooledCollateral.Price — the price of the backing asset in collateral.

A price is a ratio of two amounts: so many units of collateral for so many of
the backing asset. `quote` builds one from parts and refuses zeros;
`collateralValue` and `backingValue` convert amounts, the first rounded up and
the second down.
-/
import PooledCollateral.Amount

namespace PooledCollateral

/-- Collateral units per backing-asset units. -/
structure Price where
  /-- Collateral units. -/
  numerator : Nat
  /-- Backing-asset units. -/
  denominator : Nat
  deriving DecidableEq

namespace Price

/-- The price with these two parts, neither of which may be zero. -/
def quote (numerator denominator : Nat) : Checked Price := do
  require (numerator ≠ 0 ∧ denominator ≠ 0) (.priceUnavailable (.degenerate numerator denominator))
  return ⟨numerator, denominator⟩

/-- The collateral worth an amount of the backing asset, rounded up. -/
def collateralValue (price : Price) (backing : Nat) : Checked Nat :=
  Amount.mulDivUp backing price.numerator price.denominator

/-- The backing asset worth an amount of collateral, rounded down. -/
def backingValue (price : Price) (collateral : Nat) : Checked Nat :=
  Amount.mulDiv collateral price.denominator price.numerator

end Price

end PooledCollateral
