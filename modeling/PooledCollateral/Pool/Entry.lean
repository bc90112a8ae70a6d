/-
PooledCollateral.Pool.Entry — collateral comes in, shares are minted.

The first entry gets one share per unit of collateral and must cover what an
earlier life of the pool left behind. Every later one gets shares in proportion
to the collateral already there, rounded down. The shares are locked for a
time, and charged with the slice of the fees they would otherwise take.
-/
import PooledCollateral.Pool.Basic

namespace PooledCollateral

/-- What an entry would do. -/
structure EntryQuote where
  shares : Nat
  feeDebt : Nat
  collateralAfter : Nat
  deriving DecidableEq

/-- What an entry did. -/
structure EntryReceipt where
  shares : Nat
  feeDebt : Nat
  /-- When the new shares become free. -/
  unlockTime : Nat
  deriving DecidableEq

namespace Pool

/-- The collateral worth the fees that nobody owns; there must be a price if
there are any. -/
def leftoverFeeValue (pool : Pool) (price : Option Price) : Checked Nat :=
  let unowned := pool.fees.unowned pool.feeReserve
  if unowned = 0 then .ok 0
  else match price with
    | none => reject (.priceUnavailable .neededForLeftoverFees)
    | some price => price.collateralValue unowned

/-- The shares that an amount of collateral buys. -/
def entryShares (pool : Pool) (collateral : Nat) (price : Option Price) : Checked Nat := do
  let supply := pool.shares.supply
  if supply = 0 then
    let required ← Amount.add (← pool.leftoverFeeValue price) pool.collateral
    require (required ≤ collateral) (.insufficientBootstrap collateral required)
    return collateral
  require (pool.collateral ≠ 0) (.collateralDepleted supply)
  let shares ← Amount.mulDiv collateral supply pool.collateral
  require (shares ≠ 0) .shareTooSmall
  return shares

/-- What the entry of an amount of collateral would do. -/
def quoteEntry (pool : Pool) (collateral : Nat) (price : Option Price) : Checked EntryQuote := do
  require (pool.settings.minEntry ≤ collateral)
    (.belowMinimumEntry collateral pool.settings.minEntry)
  let shares ← pool.entryShares collateral price
  let feeDebt ← pool.fees.entryDebt pool.feeReserve shares pool.shares.supply
  let collateralAfter ← Amount.add pool.collateral collateral
  return { shares, feeDebt, collateralAfter }

/-- When shares minted now would become free, the holder's other locks aside. -/
def unlockTime (pool : Pool) (now : Nat) : Nat := min (now + pool.settings.lockDuration) maxTime

/-- Mints shares to a holder for its collateral. -/
def enter (holder : Address) (collateral : Nat) (price : Option Price) (now : Nat) :
    Action Pool EntryReceipt := do
  let pool ← get
  let quote ← pool.quoteEntry collateral price
  let unlockTime ← onShares (ShareBook.mint holder quote.shares (pool.unlockTime now))
  onFees (FeeBook.charge holder quote.feeDebt)
  modify fun pool => { pool with collateral := quote.collateralAfter }
  return { shares := quote.shares, feeDebt := quote.feeDebt, unlockTime }

end Pool

end PooledCollateral
