/-
PooledCollateral.Pool.Audit — the check of a whole pool.

The supply must be the sum of the balances, the two totals of the fee book the
sums of its rows, and the claims of all holders must be covered by the reserve,
up to the slack for rounding.
-/
import PooledCollateral.Guard
import PooledCollateral.Pool.Records

namespace PooledCollateral.Pool

/-- The sum of the claims of all holders. -/
def totalClaims (pool : Pool) : Checked Nat :=
  pool.holders.foldlM (fun sum holder => do Amount.add sum (← pool.claim holder)) 0

/-- Checks a pool over every holder. -/
def verify (pool : Pool) : Checked Unit := do
  let supply := pool.shares.supply
  let balances ← Amount.fit pool.shares.totalBalance
  require (balances = supply) (.storage (.supplyMismatch supply balances))
  let fees := pool.fees
  let debts ← Amount.fit fees.debts.total
  let credits ← Amount.fit fees.credits.total
  require (debts = fees.totalDebt ∧ credits = fees.totalCredit)
    (.storage (.feeMismatch fees.totalDebt fees.totalCredit debts credits))
  let claims ← pool.totalClaims
  require (Guard.feesBacked claims pool.feeReserve pool.holders.length)
    (.storage (.claimsExceedReserve claims pool.feeReserve Guard.roundingSlack))

end PooledCollateral.Pool
