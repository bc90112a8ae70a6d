/-
PooledCollateral.Rejection — why an operation is refused.

`Rejection` has one constructor per cause and carries the quantities the cause
is about. `Rejection.message` is the wording, `Rejection.family` the coarse
class under which refusals are counted. The four causes that name a matter of
settings, price, tokens or storage carry an issue type of their own, whose
constructor `other` holds a wording that came from outside.
-/
import PooledCollateral.Address
import PooledCollateral.Text.Quoted

namespace PooledCollateral

/-- The two tokens the pool keeps: its collateral, and the backing asset in
which fees are earned and redemptions are made. -/
inductive Asset
  | collateral
  | backing
  deriving DecidableEq

/-- The name of an asset in messages. -/
def Asset.label : Asset → String
  | .collateral => "Collateral"
  | .backing => "FAsset"

/-! ## Issues -/

/-- What is wrong with a set of pool settings. -/
inductive SettingsIssue
  /-- The exit ratio is not above `floor` bips. -/
  | exitRatio (floor given : Nat)
  /-- The smallest entry is zero. -/
  | zeroEntry
  /-- The variable of that name does not hold a numeral that fits its setting. -/
  | unreadable (name raw : String)
  | other (text : String)
  deriving DecidableEq

/-- Why there is no usable price. -/
inductive PriceIssue
  | degenerate (numerator denominator : Nat)
  /-- The manager quotes no price. -/
  | notQuoted
  /-- Leftover fees have to be valued, and the caller gave no price. -/
  | neededForLeftoverFees
  | other (text : String)
  deriving DecidableEq

/-- Why a token movement is refused. -/
inductive TokenIssue
  | balanceBelow (symbol : String) (available amount : Nat)
  | poolHoldsLess (held : Nat) (asset : Asset) (needed : Nat)
  | other (text : String)
  deriving DecidableEq

/-- What is wrong with stored state. -/
inductive StorageIssue
  /-- The store takes no commits at present. -/
  | commitRejected
  /-- The file ends before the snapshot does. -/
  | truncated
  /-- The totals of a snapshot are not the sums of its rows; of each pair the
  first is the sum and the second the total. -/
  | totalsMismatch (supply debt credit : Nat × Nat)
  | supplyMismatch (supply balances : Nat)
  /-- The two totals of the fee book are not the sums of its rows. -/
  | feeMismatch (debt credit debtRows creditRows : Nat)
  | claimsExceedReserve (claimable reserve slack : Nat)
  | other (text : String)
  deriving DecidableEq

namespace SettingsIssue

def message : SettingsIssue → String
  | exitRatio floor given => s!"exit collateral ratio must exceed {floor} bips, got {given}"
  | zeroEntry => "minimum entry must be positive"
  | unreadable name raw => name ++ ": cannot parse " ++ Text.Quoted.encode raw
  | other text => text

end SettingsIssue

namespace PriceIssue

def message : PriceIssue → String
  | degenerate numerator denominator => s!"degenerate price {numerator}/{denominator}"
  | notQuoted => "mock price not set"
  | neededForLeftoverFees => "needed to value leftover fee reserve"
  | other text => text

end PriceIssue

namespace TokenIssue

def message : TokenIssue → String
  | balanceBelow symbol available amount =>
    s!"{symbol}: balance {available} below transfer of {amount}"
  | poolHoldsLess held asset needed => s!"pool holds {held} of {asset.label}, needs {needed}"
  | other text => text

end TokenIssue

namespace StorageIssue

def message : StorageIssue → String
  | commitRejected => "commit rejected"
  | truncated => "corrupt snapshot: io error: unexpected end of file"
  | totalsMismatch supply debt credit =>
    s!"snapshot totals mismatch: supply {supply.1} vs {supply.2}, " ++
    s!"debt {debt.1} vs {debt.2}, credit {credit.1} vs {credit.2}"
  | supplyMismatch supply balances => s!"share supply {supply} does not match balances {balances}"
  | feeMismatch debt credit debtRows creditRows =>
    s!"fee totals (debt {debt}, credit {credit}) do not match holders " ++
    s!"(debt {debtRows}, credit {creditRows})"
  | claimsExceedReserve claimable reserve slack =>
    s!"claimable fees {claimable} exceed fee reserve {reserve} (slack {slack} per holder)"
  | other text => text

end StorageIssue

/-! ## Rejections -/

/-- The cause for which an operation is refused. -/
inductive Rejection
  | belowMinimumEntry (amount minimum : Nat)
  /-- The first entry must cover the collateral and the fees left in the pool. -/
  | insufficientBootstrap (provided required : Nat)
  | zeroShares
  /-- The shares are worth no collateral, or the collateral buys no share. -/
  | shareTooSmall
  | insufficientBalance (requested available : Nat)
  | insufficientUnlocked (requested available : Nat)
  | insufficientTransferable (requested available : Nat)
  | insufficientClaim (requested claimable : Nat)
  | zeroPayment
  | exceedsDebt (amount debt : Nat)
  | allowanceTooLow (required allowed : Nat)
  | insufficientCollateral (requested available : Nat)
  | invalidSettings (issue : SettingsIssue)
  | belowExitRatio (ratio required : Nat)
  | residualSupply (remaining minimum : Nat)
  | residualCollateral (remaining minimum : Nat)
  /-- Shares are outstanding, but no collateral stands behind them. -/
  | collateralDepleted (supply : Nat)
  /-- A quantity left its range, or was divided by zero. -/
  | overflow
  | priceUnavailable (issue : PriceIssue)
  | redemptionTooSmall (amount : Nat)
  | tooManyTickets
  | token (issue : TokenIssue)
  | storage (issue : StorageIssue)
  | unauthorized (caller : Address)
  deriving DecidableEq

/-- The coarse class of a rejection. -/
inductive Family
  | validation
  | invariant
  | collaborator
  | authorization
  deriving DecidableEq

/-- The name under which a family is counted. -/
def Family.label : Family → String
  | validation => "validation"
  | invariant => "invariant"
  | collaborator => "collaborator"
  | authorization => "authorization"

namespace Rejection

/-- An address in a message: its bytes in a bracketed list. -/
def addressText (a : Address) : String :=
  "[" ++ ", ".intercalate (a.toBytes.map fun byte => Text.Hex.encode [byte]) ++ "]"

/-- The wording of a rejection. -/
def message : Rejection → String
  | belowMinimumEntry amount minimum => s!"Entry below minimum: {amount} < {minimum}"
  | insufficientBootstrap provided required =>
    s!"Insufficient bootstrap contribution: {provided} < {required}"
  | zeroShares => "Share amount is zero"
  | shareTooSmall => "Share amount too small"
  | insufficientBalance requested available =>
    s!"Insufficient share balance: requested {requested}, available {available}"
  | insufficientUnlocked requested available =>
    s!"Insufficient non-timelocked shares: requested {requested}, available {available}"
  | insufficientTransferable requested available =>
    s!"Insufficient transferable shares: requested {requested}, available {available}"
  | insufficientClaim requested claimable =>
    s!"Insufficient claimable fees: requested {requested}, claimable {claimable}"
  | zeroPayment => "Fee debt payment is zero"
  | exceedsDebt amount debt => s!"Payment exceeds fee debt: {amount} > {debt}"
  | allowanceTooLow required allowed => s!"Allowance too low: required {required}, allowed {allowed}"
  | insufficientCollateral requested available =>
    s!"Insufficient pool collateral: requested {requested}, available {available}"
  | invalidSettings issue => "Invalid pool config: " ++ issue.message
  | belowExitRatio ratio required =>
    s!"Collateral ratio below exit threshold: {ratio} < {required} bips"
  | residualSupply remaining minimum => s!"Residual share supply too low: {remaining} < {minimum}"
  | residualCollateral remaining minimum => s!"Residual collateral too low: {remaining} < {minimum}"
  | collateralDepleted supply => s!"Pool collateral depleted with {supply} shares outstanding"
  | overflow => "Math overflow"
  | priceUnavailable issue => "Price unavailable: " ++ issue.message
  | redemptionTooSmall amount => s!"Redemption too small: {amount}"
  | tooManyTickets => "Too many outstanding tickets required"
  | token issue => "Token error: " ++ issue.message
  | storage issue => "Storage error: " ++ issue.message
  | unauthorized caller => "Unauthorized caller: " ++ addressText caller

/-- The class of a rejection: guards of the pool's health, failures of the
manager, the tokens or the store, missing permission, and all else bad input. -/
def family : Rejection → Family
  | belowExitRatio .. | residualSupply .. | residualCollateral .. | collateralDepleted ..
  | overflow => .invariant
  | priceUnavailable .. | redemptionTooSmall .. | tooManyTickets | token .. | storage .. =>
    .collaborator
  | unauthorized .. => .authorization
  | _ => .validation

end Rejection

end PooledCollateral
