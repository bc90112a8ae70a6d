/-
PooledCollateral.Custody.Call — the operations of a pool in operation as data,
and what may happen around it.

A `Call` names an operation with its arguments and `perform` carries it out. A
`Circumstance` is a change that does not come from the pool: of tokens, the
manager, the store or the time.
-/
import PooledCollateral.Custody.Operations

namespace PooledCollateral.Custody

/-- An operation of a pool in operation. -/
inductive Call
  | enter (caller : Address) (collateral : Nat)
  | exit (caller : Address) (shares : Nat) (recipient : Option Address)
  | selfCloseExit (caller : Address) (request : SelfCloseRequest)
  | withdrawFees (caller : Address) (amount : Nat) (recipient : Option Address)
  | payFeeDebt (caller : Address) (amount : Nat)
  | transfer (caller receiver : Address) (amount : Nat)
  | cleanup (holder : Address) (limit : Nat)
  | depositFees (caller : Address) (amount : Nat)
  | receiveCollateral (caller : Address) (amount : Nat)
  | payout (caller holder recipient : Address) (collateral shares : Nat)
  | updateSettings (caller : Address) (settings : Settings)

/-- What an operation answers. -/
inductive Reply
  | entered (receipt : EntryReceipt)
  | exited (receipt : ExitReceipt)
  | selfClosed (receipt : SelfCloseReceipt)
  | cleaned (done : Bool)
  | done

/-- Carries out an operation. -/
def perform : Call → Action Custody Reply
  | .enter caller collateral => return .entered (← enter caller collateral)
  | .exit caller shares recipient => return .exited (← exit caller shares recipient)
  | .selfCloseExit caller request => return .selfClosed (← selfCloseExit caller request)
  | .withdrawFees caller amount recipient => do
    withdrawFees caller amount recipient
    return .done
  | .payFeeDebt caller amount => do payFeeDebt caller amount; return .done
  | .transfer caller receiver amount => do transfer caller receiver amount; return .done
  | .cleanup holder limit => return .cleaned (← cleanup holder limit)
  | .depositFees caller amount => do depositFees caller amount; return .done
  | .receiveCollateral caller amount => do receiveCollateral caller amount; return .done
  | .payout caller holder recipient collateral shares => do
    payout caller holder recipient collateral shares
    return .done
  | .updateSettings caller settings => do updateSettings caller settings; return .done

/-- A change around a pool. -/
inductive Circumstance
  /-- Tokens are made for an account. -/
  | mint (asset : Asset) (account : Address) (amount : Nat)
  /-- An owner lets the pool pull tokens. -/
  | approve (asset : Asset) (owner : Address) (amount : Nat)
  | setPrice (price : Option Price)
  | setLiability (amount : Nat)
  /-- The manager quotes no price from now on, or withholds it no longer. -/
  | withholdPrice (cause : Option Rejection)
  /-- The manager does not report its liability from now on, or does so again. -/
  | withholdLiability (cause : Option Rejection)
  /-- The manager refuses redemptions from now on, or no longer. -/
  | refuseRedemptions (cause : Option Rejection)
  /-- A store in memory refuses those of the commits to come, and no others. -/
  | refuseCommits (refusals : Nat → Bool)
  /-- A file cannot be written for those of the writes to come, and no others. -/
  | failWrites (failures : Nat → Option String)
  | setTime (now : Nat)
  /-- Time passes; behind the largest time it starts again at zero. -/
  | advance (seconds : Nat)

/-- The parties with the manager changed. -/
def withManager (c : Custody) (change : Manager → Manager) : Custody :=
  { c with parties := { c.parties with manager := change c.parties.manager } }

/-- The custody after a change around it. -/
def meet (c : Custody) : Circumstance → Custody
  | .mint asset account amount =>
    { c with parties := c.parties.setToken asset ((c.parties.token asset).mint account amount) }
  | .approve asset owner amount =>
    let book := (c.parties.token asset).approve owner c.parties.poolAccount amount
    { c with parties := c.parties.setToken asset book }
  | .setPrice price => c.withManager fun m => { m with price }
  | .setLiability liability => c.withManager fun m => { m with liability }
  | .withholdPrice priceWithheld => c.withManager fun m => { m with priceWithheld }
  | .withholdLiability liabilityWithheld => c.withManager fun m => { m with liabilityWithheld }
  | .refuseRedemptions refusal => c.withManager fun m => { m with refusal }
  | .refuseCommits refusals => { c with store := c.store.withRefusals refusals }
  | .failWrites failures => { c with store := c.store.withFailures failures }
  | .setTime now => { c with now }
  | .advance seconds => { c with now := (c.now + seconds) % (maxTime + 1) }

end PooledCollateral.Custody
