/-
PooledCollateral.Event — what is published once an operation has succeeded.
-/
import PooledCollateral.Settings.Basic

namespace PooledCollateral

/-- A fact about a pool. -/
inductive Event
  | entered (holder : Address) (collateral shares feeDebt unlockTime : Nat)
  | exited (holder recipient : Address) (shares collateral fees debtForgiven : Nat)
  /-- Backing asset was redeemed along with an exit. -/
  | selfCloseRedeemed (holder : Address) (redeemed fromFees fromHolder : Nat) (toUnderlying : Bool)
  | feesWithdrawn (holder recipient : Address) (amount : Nat)
  | feeDebtPaid (holder : Address) (amount : Nat)
  | feesDeposited (amount : Nat)
  | collateralReceived (amount : Nat)
  | paidOut (holder recipient : Address) (collateral sharesBurned : Nat)
  | transferred (sender receiver : Address) (amount : Nat)
  | settingsUpdated (settings : Settings)
  deriving DecidableEq

/-- The name of the kind of an event. -/
def Event.kind : Event → String
  | entered .. => "entered"
  | exited .. => "exited"
  | selfCloseRedeemed .. => "self_close_redeemed"
  | feesWithdrawn .. => "fees_withdrawn"
  | feeDebtPaid .. => "fee_debt_paid"
  | feesDeposited .. => "fees_deposited"
  | collateralReceived .. => "collateral_received"
  | paidOut .. => "paid_out"
  | transferred .. => "transferred"
  | settingsUpdated .. => "config_updated"

end PooledCollateral
