/-
PooledCollateral.Pool.Fees — fees are earned, withdrawn and repaid.

A withdrawal is booked as debt of the holder, so that the virtual reserve, and
with it everybody else's claim, stays where it is. A repayment undoes that.
-/
import PooledCollateral.Pool.Basic

namespace PooledCollateral.Pool

/-- Withdraws claimable fees of a holder. -/
def withdrawFees (holder : Address) (amount : Nat) : Action Pool Unit := do
  let pool ← get
  let claimable ← pool.claimableFees holder
  require (amount ≤ claimable) (.insufficientClaim amount claimable)
  let feeReserve ← Amount.sub pool.feeReserve amount
  onFees (FeeBook.charge holder amount)
  modify fun pool => { pool with feeReserve }

/-- Repays fee debt of a holder. -/
def payFeeDebt (holder : Address) (amount : Nat) : Action Pool Unit := do
  require (amount ≠ 0) .zeroPayment
  let feeReserve ← Amount.add (← get).feeReserve amount
  onFees (FeeBook.reduce holder amount)
  modify fun pool => { pool with feeReserve }

/-- Books fees that the manager has sent to the pool. -/
def depositFees (amount : Nat) : Action Pool Unit := do
  let feeReserve ← Amount.add (← get).feeReserve amount
  modify fun pool => { pool with feeReserve }

/-- Books collateral that the manager has sent to the pool. -/
def receiveCollateral (amount : Nat) : Action Pool Unit := do
  let collateral ← Amount.add (← get).collateral amount
  modify fun pool => { pool with collateral }

end PooledCollateral.Pool
