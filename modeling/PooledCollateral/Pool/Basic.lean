/-
PooledCollateral.Pool.Basic — the pool, and the questions one can put to it.

A pool holds collateral for its share holders and earns fees in the backing
asset. It is pure bookkeeping: prices, liabilities and the time come in as
arguments, and tokens are moved elsewhere.
-/
import PooledCollateral.Burn
import PooledCollateral.FeeBook
import PooledCollateral.ShareBook
import PooledCollateral.Snapshot.Basic

namespace PooledCollateral

/-- A collateral pool. -/
structure Pool where
  settings : Settings
  /-- Collateral that belongs to the pool. -/
  collateral : Nat
  /-- Backing-asset fees held for the holders. -/
  feeReserve : Nat
  shares : ShareBook
  fees : FeeBook

namespace Pool

/-- An empty pool under settings that pass their check. -/
def create (settings : Settings) : Checked Pool := do
  settings.check
  return { settings, collateral := 0, feeReserve := 0, shares := ShareBook.empty,
           fees := FeeBook.empty }

/-- The totals of the pool. -/
def totals (pool : Pool) : Totals where
  collateral := pool.collateral
  feeReserve := pool.feeReserve
  feeDebt := pool.fees.totalDebt
  feeCredit := pool.fees.totalCredit
  supply := pool.shares.supply

/-- The shares of a holder. -/
def balanceOf (pool : Pool) (holder : Address) : Nat := pool.shares.balanceOf holder

/-- The fee debt of a holder. -/
def debtOf (pool : Pool) (holder : Address) : Nat := pool.fees.debts.get holder

/-- The fee credit of a holder. -/
def creditOf (pool : Pool) (holder : Address) : Nat := pool.fees.credits.get holder

/-- The shares of a holder that are still locked. -/
def lockedBalance (pool : Pool) (holder : Address) (now : Nat) : Checked Nat :=
  pool.shares.lockedBalance holder now

/-- The claim of a holder on the fees, as the fee book states it. -/
def claim (pool : Pool) (holder : Address) : Checked Nat :=
  pool.fees.claimable holder pool.feeReserve (pool.balanceOf holder) pool.shares.supply

/-- The fees a holder may withdraw: its claim, as far as the reserve goes. -/
def claimableFees (pool : Pool) (holder : Address) : Checked Nat := do
  return min (← pool.claim holder) pool.feeReserve

/-- The shares of a holder that back its fee debt. -/
def indebtedShares (pool : Pool) (holder : Address) : Checked Nat :=
  pool.fees.indebtedShares holder pool.feeReserve (pool.balanceOf holder) pool.shares.supply

/-- What binds the shares of a holder. -/
def restriction (pool : Pool) (holder : Address) (now : Nat) : Checked Restriction := do
  return { locked := ← pool.lockedBalance holder now, indebted := ← pool.indebtedShares holder }

/-- The shares a holder may send to a third party. -/
def transferable (pool : Pool) (holder : Address) (now : Nat) : Checked Nat := do
  return (← pool.restriction holder now).transferable (pool.balanceOf holder)

/-- The collateral ratio of the pool, in bips. -/
def ratioBips (pool : Pool) (backing : Backing) : Checked (Option Nat) :=
  CollateralRatio.ratioBips pool.collateral backing

/-- Whether an entry would have to pay for leftover fees, and needs their price. -/
def entryNeedsPrice (pool : Pool) : Bool :=
  pool.shares.supply = 0 && pool.fees.unowned pool.feeReserve > 0

/-! ## Actions on the parts of a pool -/

/-- An action on the share book of a pool. -/
def onShares {α : Type} (act : Action ShareBook α) : Action Pool α :=
  act.onPart (·.shares) fun pool shares => { pool with shares }

/-- An action on the fee book of a pool. -/
def onFees {α : Type} (act : Action FeeBook α) : Action Pool α :=
  act.onPart (·.fees) fun pool fees => { pool with fees }

end Pool

end PooledCollateral
