/-
PooledCollateral.Manager — the manager that the pool answers to.

The manager quotes the price of the backing asset, reports the liability, and
redeems backing asset that the pool hands over. This one can be scripted: its
price may be missing, and it may be told to withhold the price or the liability,
or to refuse redemptions, for any cause.
-/
import PooledCollateral.Price

namespace PooledCollateral

/-- A redemption that the pool asks for. -/
structure Redemption where
  /-- The holder who exits. -/
  redeemer : Address
  amount : Nat
  /-- Whether to redeem on the underlying chain rather than in collateral. -/
  toUnderlying : Bool
  /-- Where to on the underlying chain. -/
  destination : String
  /-- Who receives collateral that the manager pays. -/
  recipient : Address
  executorFee : Nat
  deriving DecidableEq

/-- The manager's acknowledgement of a redemption. -/
structure RedemptionReceipt where
  /-- The number of the request, if it goes to the underlying chain. -/
  requestId : Option Nat
  /-- Collateral that the manager pays itself. -/
  collateralPaid : Nat
  deriving DecidableEq

/-- The manager. -/
structure Manager where
  price : Option Price
  liability : Nat
  /-- The cause for which no price is quoted at present, even if there is one. -/
  priceWithheld : Option Rejection
  /-- The cause for which the liability is not reported at present. -/
  liabilityWithheld : Option Rejection
  /-- The cause for which redemptions are refused at present. -/
  refusal : Option Rejection
  /-- The redemptions carried out, oldest first. -/
  redemptions : List Redemption
  nextRequest : Nat

namespace Manager

/-- A manager with a price, and nothing else to report. -/
def create (price : Option Price) : Manager :=
  { price, liability := 0, priceWithheld := none, liabilityWithheld := none, refusal := none,
    redemptions := [], nextRequest := 1 }

/-- A price of one to one. -/
def parity : Price := ⟨1, 1⟩

/-- Refuses for a cause, if there is one. -/
def unlessWithheld (cause : Option Rejection) : Checked Unit :=
  match cause with
  | some cause => reject cause
  | none => .ok ()

/-- The price that the manager quotes. -/
def priceRatio (m : Manager) : Checked Price := do
  unlessWithheld m.priceWithheld
  match m.price with
  | some price => return price
  | none => reject (.priceUnavailable .notQuoted)

/-- The liability that the manager reports. -/
def backingLiability (m : Manager) : Checked Nat := do
  unlessWithheld m.liabilityWithheld
  return m.liability

/-- The collateral paid for a redemption that stays on this chain. -/
def collateralFor (m : Manager) (amount : Nat) : Checked Nat :=
  match m.price with
  | none => .ok 0
  | some price =>
    if price.denominator = 0 then .error .fault
    else .ok (Amount.mulSaturating amount price.numerator / price.denominator)

/-- Redeems backing asset. -/
def redeem (r : Redemption) : Action Manager RedemptionReceipt := do
  if let some cause := (← get).refusal then
    throw (.rejected cause)
  modify fun m =>
    { m with liability := m.liability - r.amount, redemptions := m.redemptions ++ [r] }
  let m ← get
  if r.toUnderlying then
    set { m with nextRequest := m.nextRequest + 1 }
    return { requestId := some m.nextRequest, collateralPaid := 0 }
  return { requestId := none, collateralPaid := ← m.collateralFor r.amount }

end Manager

end PooledCollateral
