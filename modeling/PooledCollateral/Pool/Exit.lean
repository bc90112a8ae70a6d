/-
PooledCollateral.Pool.Exit — shares are burned, collateral and fees go out.

`quoteExit` says what a burn of shares would do. A plain exit must leave the
collateral ratio at or above the exit ratio. A self-close exit redeems backing
asset along with it, enough for the ratio not to suffer; it is planned first
and applied afterwards. Neither may leave dust behind.
-/
import PooledCollateral.Guard
import PooledCollateral.Pool.Basic

namespace PooledCollateral

/-- What a burn of shares would do. -/
structure ExitQuote where
  shares : Nat
  /-- Collateral released. -/
  collateral : Nat
  /-- Fees released. -/
  fees : Nat
  debtForgiven : Nat
  creditUsed : Nat
  collateralAfter : Nat
  supplyAfter : Nat
  deriving DecidableEq

/-- What an exit did. -/
structure ExitReceipt where
  shares : Nat
  collateral : Nat
  /-- Fees released to the recipient. -/
  fees : Nat
  debtForgiven : Nat
  deriving DecidableEq

/-- A self-close exit that passed every guard. -/
structure SelfClosePlan where
  quote : ExitQuote
  /-- Backing asset to redeem. -/
  burn : Nat
  funding : Burn.Funding
  deriving DecidableEq

namespace Pool

/-- The fees that go with shares of a balance: all claimable fees with all
shares, else their part, rounded down. -/
def exitFees (pool : Pool) (holder : Address) (shares balance : Nat) : Checked Nat := do
  let claimable ← pool.claimableFees holder
  if shares = balance then return claimable
  Amount.mulDiv claimable shares balance

/-- What a burn of shares would do. -/
def quoteExit (pool : Pool) (holder : Address) (shares now : Nat) : Checked ExitQuote := do
  require (shares ≠ 0) .zeroShares
  let balance := pool.balanceOf holder
  let restriction : Restriction := { locked := ← pool.lockedBalance holder now, indebted := 0 }
  restriction.authorizeExit balance shares
  let supply := pool.shares.supply
  let collateral ← Amount.mulDiv shares pool.collateral supply
  require (collateral ≠ 0) .shareTooSmall
  let fees ← pool.exitFees holder shares balance
  let settlement ← pool.fees.settlement holder shares balance
  let collateralAfter ← Amount.sub pool.collateral collateral
  let supplyAfter ← Amount.sub supply shares
  return { shares, collateral, fees, debtForgiven := settlement.debt,
           creditUsed := settlement.credit, collateralAfter, supplyAfter }

/-- Refuses a burn that would leave dust. -/
def checkResiduals (pool : Pool) (quote : ExitQuote) : Checked Unit := do
  Guard.residualSupply quote.supplyAfter pool.settings.minSupplyAfterExit
  Guard.residualCollateral quote.collateralAfter pool.settings.minCollateralAfterExit

/-- Carries out a quoted burn. -/
def carryOut (holder : Address) (quote : ExitQuote) (now : Nat) : Action Pool Unit := do
  let pool ← get
  let feeReserve ← Amount.sub pool.feeReserve quote.fees
  let collateral ← Amount.sub pool.collateral quote.collateral
  onShares (ShareBook.burn holder quote.shares now)
  onFees (FeeBook.settle holder { debt := quote.debtForgiven, credit := quote.creditUsed })
  modify fun pool => { pool with feeReserve, collateral }

/-! ## Plain exit -/

/-- The burn that a plain exit would carry out, once every guard has passed. -/
def planExit (pool : Pool) (holder : Address) (shares : Nat) (backing : Backing) (now : Nat) :
    Checked ExitQuote := do
  let quote ← pool.quoteExit holder shares now
  Guard.exitRatio quote.collateralAfter quote.supplyAfter backing pool.settings.exitRatio
  pool.checkResiduals quote
  return quote

/-- Burns shares of a holder for collateral and fees. -/
def exit (holder : Address) (shares : Nat) (backing : Backing) (now : Nat) :
    Action Pool ExitReceipt := do
  let quote ← (← get).planExit holder shares backing now
  carryOut holder quote now
  return { shares := quote.shares, collateral := quote.collateral, fees := quote.fees,
           debtForgiven := quote.debtForgiven }

/-! ## Self-close exit -/

/-- Refuses a burn of backing asset after which the ratio is neither at the
exit ratio nor as good as before, unless the pool then owes nothing or is
empty. -/
def guardSelfClose (pool : Pool) (quote : ExitQuote) (backing : Backing) (burn : Nat) :
    Checked Unit := do
  let after : Backing := { backing with liability := ← Amount.sub backing.liability burn }
  if after.liability = 0 ∨ (quote.supplyAfter = 0 ∧ quote.collateralAfter = 0) then return
  if ← CollateralRatio.backs quote.collateralAfter after pool.settings.exitRatio then return
  if ← CollateralRatio.notWorse pool.collateral backing.liability quote.collateralAfter
      after.liability then return
  let ratio ← CollateralRatio.ratioBips quote.collateralAfter after
  reject (.belowExitRatio (ratio.getD 0) pool.settings.exitRatio)

/-- The plan of a self-close exit: the burn of shares, the backing asset to
redeem, and who pays for it. -/
def planSelfClose (pool : Pool) (holder : Address) (shares : Nat) (backing : Backing) (now : Nat) :
    Checked SelfClosePlan := do
  let quote ← pool.quoteExit holder shares now
  let burn ← Burn.required pool.collateral quote.collateral backing pool.settings.exitRatio
  pool.guardSelfClose quote backing burn
  pool.checkResiduals quote
  let funding ← Burn.fund burn quote.fees
  return { quote, burn, funding }

/-- Carries out a planned self-close exit. The fees leave the reserve as a
whole; the receipt names the part that the burn does not use. -/
def applySelfClose (holder : Address) (plan : SelfClosePlan) (now : Nat) :
    Action Pool ExitReceipt := do
  carryOut holder plan.quote now
  return { shares := plan.quote.shares, collateral := plan.quote.collateral,
           fees := plan.funding.toRecipient, debtForgiven := plan.quote.debtForgiven }

/-- Plans a self-close exit and carries it out at once. -/
def selfClose (holder : Address) (shares : Nat) (backing : Backing) (now : Nat) :
    Action Pool (SelfClosePlan × ExitReceipt) := do
  let plan ← (← get).planSelfClose holder shares backing now
  return (plan, ← applySelfClose holder plan now)

end Pool

end PooledCollateral
