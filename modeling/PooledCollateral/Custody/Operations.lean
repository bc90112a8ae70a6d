/-
PooledCollateral.Custody.Operations — what holders and the manager can ask of a
pool in operation.

Each operation is one transaction: the change of the pool, then the dealings
with tokens and manager. Before anything is sent or redeemed the pool's account
is checked to hold it, so that after a redemption nothing can fail any more.
-/
import PooledCollateral.Custody.Transaction
import PooledCollateral.Pool.Administration
import PooledCollateral.Pool.Audit
import PooledCollateral.Pool.Entry
import PooledCollateral.Pool.Exit
import PooledCollateral.Pool.Fees

namespace PooledCollateral

/-- What a holder asks for with a self-close exit. -/
structure SelfCloseRequest where
  shares : Nat
  /-- Whether to redeem on the underlying chain rather than in collateral. -/
  toUnderlying : Bool
  /-- Where to on the underlying chain. -/
  destination : String
  /-- Who receives collateral and leftover fees; the caller if nobody is named. -/
  recipient : Option Address
  executorFee : Nat

/-- What a self-close exit did. -/
structure SelfCloseReceipt where
  exit : ExitReceipt
  /-- Backing asset redeemed. -/
  redeemed : Nat
  pulledFromHolder : Nat
  /-- The manager's acknowledgement, if anything had to be redeemed. -/
  redemption : Option RedemptionReceipt

namespace Custody

/-! ## Holders -/

/-- Takes collateral from the caller and mints shares for it. -/
def enter (caller : Address) (collateral : Nat) : Action Custody EntryReceipt :=
  timed .enter <| concluded .enter do
    let c ← get
    let price ← if c.pool.entryNeedsPrice then some <$> c.parties.manager.priceRatio else pure none
    let change : Action Pool EntryReceipt := do
      let receipt ← Pool.enter caller collateral price c.now
      c.parties.requireAllowance .collateral caller collateral
      return receipt
    let (receipt, _) ← transact [caller] change fun _ => Errand.pull .collateral caller collateral
    return (receipt, [.entered caller collateral receipt.shares receipt.feeDebt receipt.unlockTime])

/-- Burns shares of the caller for collateral and fees, sent to the recipient. -/
def exit (caller : Address) (shares : Nat) (recipient : Option Address) :
    Action Custody ExitReceipt :=
  timed .exit <| concluded .exit do
    let c ← get
    let recipient := recipient.getD caller
    let backing ← c.parties.backingState
    let deal (receipt : ExitReceipt) : Action Errand Unit := do
      Errand.requireHolding .collateral receipt.collateral
      Errand.requireHolding .backing receipt.fees
      Errand.release .collateral recipient receipt.collateral
      Errand.release .backing recipient receipt.fees
    let (receipt, _) ← transact [caller] (Pool.exit caller shares backing c.now) deal
    return (receipt, [.exited caller recipient receipt.shares receipt.collateral receipt.fees
      receipt.debtForgiven])

/-- Has the manager redeem backing asset, if there is any to redeem. -/
def redeem (redemption : Redemption) : Action Errand (Option RedemptionReceipt) := do
  if redemption.amount = 0 then return none
  return some (← Errand.onParties (Parties.onManager (Manager.redeem redemption)))

/-- The dealings of a self-close exit: the holder's part of the burn comes in,
the burn is redeemed and goes to the manager, collateral and leftover fees go
to the recipient. -/
def dealSelfClose (caller recipient : Address) (request : SelfCloseRequest) (plan : SelfClosePlan)
    (receipt : ExitReceipt) : Action Errand (Option RedemptionReceipt) := do
  let funding := plan.funding
  Errand.pull .backing caller funding.fromHolder
  Errand.requireHolding .collateral receipt.collateral
  Errand.requireHolding .backing (Amount.addSaturating plan.burn funding.toRecipient)
  let redemption ← redeem
    { redeemer := caller, amount := plan.burn, toUnderlying := request.toUnderlying,
      destination := request.destination, recipient, executorFee := request.executorFee }
  Errand.release .backing (← get).parties.managerAccount plan.burn
  Errand.release .collateral recipient receipt.collateral
  Errand.release .backing recipient funding.toRecipient
  return redemption

/-- The events of a self-close exit. -/
def selfCloseEvents (caller recipient : Address) (toUnderlying : Bool) (plan : SelfClosePlan)
    (receipt : ExitReceipt) : List Event :=
  let exited := .exited caller recipient receipt.shares receipt.collateral receipt.fees
    receipt.debtForgiven
  let funding := plan.funding
  if plan.burn = 0 then [exited]
  else [exited, .selfCloseRedeemed caller plan.burn funding.fromFees funding.fromHolder toUnderlying]

/-- Burns shares of the caller while redeeming enough backing asset for the
collateral ratio not to suffer. -/
def selfCloseExit (caller : Address) (request : SelfCloseRequest) :
    Action Custody SelfCloseReceipt :=
  timed .selfCloseExit <| concluded .selfCloseExit do
    let c ← get
    let recipient := request.recipient.getD caller
    let backing ← c.parties.backingState
    let change : Action Pool (SelfClosePlan × ExitReceipt) := do
      let plan ← (← get).planSelfClose caller request.shares backing c.now
      c.parties.requireAllowance .backing caller plan.funding.fromHolder
      return (plan, ← Pool.applySelfClose caller plan c.now)
    let ((plan, receipt), redemption) ← transact [caller] change fun (plan, receipt) =>
      dealSelfClose caller recipient request plan receipt
    modify fun c => { c with metrics := c.metrics.redeem plan.burn }
    return ({ exit := receipt, redeemed := plan.burn,
              pulledFromHolder := plan.funding.fromHolder, redemption },
      selfCloseEvents caller recipient request.toUnderlying plan receipt)

/-- Withdraws claimable fees of the caller to the recipient. -/
def withdrawFees (caller : Address) (amount : Nat) (recipient : Option Address) :
    Action Custody Unit :=
  timed .withdrawFees <| concluded .withdrawFees do
    let recipient := recipient.getD caller
    let deal : Action Errand Unit := do
      Errand.requireHolding .backing amount
      Errand.release .backing recipient amount
    let _ ← transact [caller] (Pool.withdrawFees caller amount) fun _ => deal
    return ((), [.feesWithdrawn caller recipient amount])

/-- Takes backing asset from the caller for its fee debt. -/
def payFeeDebt (caller : Address) (amount : Nat) : Action Custody Unit :=
  timed .payFeeDebt <| concluded .payFeeDebt do
    let c ← get
    let change : Action Pool Unit := do
      Pool.payFeeDebt caller amount
      c.parties.requireAllowance .backing caller amount
    let _ ← transact [caller] change fun _ => Errand.pull .backing caller amount
    return ((), [.feeDebtPaid caller amount])

/-- Moves free shares of the caller. A transfer of nothing, or to oneself, is no
event. -/
def transfer (caller receiver : Address) (amount : Nat) : Action Custody Unit :=
  timed .transfer <| concluded .transfer do
    let c ← get
    let _ ← transact [caller, receiver] (Pool.transfer caller receiver amount c.now) fun _ =>
      (pure () : Action Errand Unit)
    let events := if amount = 0 ∨ caller = receiver then [] else [.transferred caller receiver amount]
    return ((), events)

/-- Removes ended locks of a holder, at most `limit` of them, and says whether
none is left. If the removal cannot be committed it does not take place, and
the answer is no. -/
def cleanup (holder : Address) (limit : Nat) : Action Custody Bool := fun c =>
  let mark := c.pool.checkpoint [holder]
  match (Pool.cleanup holder limit c.now).run c.pool with
  | .error e pool => .error e { c with pool }
  | .ok done pool =>
    if (pool.holderRow holder).locks.length = (c.pool.holderRow holder).locks.length then
      .ok done { c with pool }
    else match (Store.commit (pool.delta [holder])).run c.store with
      | .ok _ store => .ok done { c with pool, store }
      | .error _ store => .ok false { c with pool := pool.restore mark, store }

/-! ## The manager -/

/-- Seizes shares of a holder and sends collateral to the recipient. -/
def payout (caller holder recipient : Address) (collateral shares : Nat) : Action Custody Unit :=
  timed .payout <| concluded .payout do
    let c ← get
    c.parties.requireManager caller
    let deal : Action Errand Unit := do
      Errand.requireHolding .collateral collateral
      Errand.release .collateral recipient collateral
    let _ ← transact [holder] (Pool.payout holder collateral shares c.now) fun _ => deal
    return ((), [.paidOut holder recipient collateral shares])

/-- An operation of the manager that only changes the pool as a whole. -/
def administer (kind : OperationKind) (caller : Address) (change : Action Pool Unit)
    (event : Event) : Action Custody Unit :=
  concluded kind do
    (← get).parties.requireManager caller
    let _ ← transact [] change fun _ => (pure () : Action Errand Unit)
    return ((), [event])

/-- Books fees that the manager has sent. -/
def depositFees (caller : Address) (amount : Nat) : Action Custody Unit :=
  administer .depositFees caller (Pool.depositFees amount) (.feesDeposited amount)

/-- Books collateral that the manager has sent. -/
def receiveCollateral (caller : Address) (amount : Nat) : Action Custody Unit :=
  administer .receiveCollateral caller (Pool.receiveCollateral amount) (.collateralReceived amount)

/-- Replaces the settings. -/
def updateSettings (caller : Address) (settings : Settings) : Action Custody Unit :=
  administer .updateSettings caller (Pool.updateSettings settings) (.settingsUpdated settings)

/-! ## Queries -/

/-- The collateral ratio of the pool, in bips. -/
def ratioBips (c : Custody) : Checked (Option Nat) := do
  c.pool.ratioBips (← c.parties.backingState)

end Custody

end PooledCollateral
