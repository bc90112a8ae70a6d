/-
PooledCollateral.Pool.Administration — seizures, settings, transfers and the
clearing of locks.
-/
import PooledCollateral.Pool.Basic

namespace PooledCollateral.Pool

/-- Seizes shares of a holder and releases collateral. Locks and debt do not
stand in the way, and the debt stays; the fees that the shares had earned
become credit of the holder, so that nobody else's claim moves. -/
def payout (holder : Address) (collateral shares now : Nat) : Action Pool Unit := do
  let pool ← get
  let balance := pool.balanceOf holder
  require (shares ≤ balance) (.insufficientBalance shares balance)
  require (collateral ≤ pool.collateral) (.insufficientCollateral collateral pool.collateral)
  let _ ← onFees (FeeBook.seize holder pool.feeReserve shares pool.shares.supply)
  onShares (ShareBook.burn holder shares now)
  let left ← Amount.take pool.collateral collateral
  modify fun pool => { pool with collateral := left }

/-- Replaces the settings by others that pass their check. -/
def updateSettings (settings : Settings) : Action Pool Unit := do
  settings.check
  modify fun pool => { pool with settings }

/-- Moves free shares from one holder to another. -/
def transfer (sender receiver : Address) (amount now : Nat) : Action Pool Unit := do
  let restriction ← (← get).restriction sender now
  onShares (ShareBook.transfer sender receiver amount restriction now)

/-- Removes ended locks of a holder, at most `limit` of them, and says whether
none is left. -/
def cleanup (holder : Address) (limit now : Nat) : Action Pool Bool := do
  modify fun pool => { pool with shares := pool.shares.cleanup holder now limit }
  return (← get).shares.isClean holder now

end PooledCollateral.Pool
