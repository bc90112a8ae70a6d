/-
PooledCollateral.Custody.Basic — a pool with everything it deals with.

The parties to a pool are its own account and the manager's, the two tokens,
and the manager. Custody is the pool together with its parties, the store that
outlives it, the published events, the time and the metrics.
-/
import PooledCollateral.Event
import PooledCollateral.Manager
import PooledCollateral.Metrics.Basic
import PooledCollateral.Pool.Records
import PooledCollateral.Store
import PooledCollateral.TokenBook

namespace PooledCollateral

/-- The accounts, tokens and manager that a pool deals with. -/
structure Parties where
  /-- The account that holds the pool's tokens. -/
  poolAccount : Address
  /-- The only account that may call the administrative operations. -/
  managerAccount : Address
  collateral : TokenBook
  backing : TokenBook
  manager : Manager

/-- A pool in operation. -/
structure Custody where
  parties : Parties
  store : Store
  /-- The events published so far, oldest first. -/
  events : List Event
  now : Nat
  metrics : Metrics
  pool : Pool

namespace Parties

/-- The book of an asset. -/
def token (p : Parties) : Asset → TokenBook
  | .collateral => p.collateral
  | .backing => p.backing

/-- The parties with the book of an asset replaced. -/
def setToken (p : Parties) (asset : Asset) (book : TokenBook) : Parties :=
  match asset with
  | .collateral => { p with collateral := book }
  | .backing => { p with backing := book }

/-- An action on the book of an asset. -/
def onToken {α : Type} (asset : Asset) (act : Action TokenBook α) : Action Parties α :=
  act.onPart (·.token asset) fun p book => p.setToken asset book

/-- An action on the manager. -/
def onManager {α : Type} (act : Action Manager α) : Action Parties α :=
  act.onPart (·.manager) fun p manager => { p with manager }

/-- What the manager reports: the liability, and then its price. -/
def backingState (p : Parties) : Checked Backing := do
  let liability ← p.manager.backingLiability
  return { liability, price := ← p.manager.priceRatio }

/-- Refuses a caller other than the manager. -/
def requireManager (p : Parties) (caller : Address) : Checked Unit :=
  require (caller = p.managerAccount) (.unauthorized caller)

/-- Refuses if the pool may not pull an amount from an owner. -/
def requireAllowance (p : Parties) (asset : Asset) (owner : Address) (amount : Nat) :
    Checked Unit :=
  let allowed := (p.token asset).allowance owner p.poolAccount
  require (amount ≤ allowed) (.allowanceTooLow amount allowed)

/-- Refuses if the pool's account does not hold an amount. -/
def requireHolding (p : Parties) (asset : Asset) (amount : Nat) : Checked Unit :=
  let held := (p.token asset).balanceOf p.poolAccount
  require (amount ≤ held) (.token (.poolHoldsLess held asset amount))

/-- Sends an amount from the pool's account. -/
def release (asset : Asset) (receiver : Address) (amount : Nat) : Action Parties Unit := do
  if amount = 0 then return
  let p ← get
  onToken asset (TokenBook.transfer p.poolAccount receiver amount)

end Parties

namespace Custody

/-- The pool that a store holds, or a fresh one under the given settings. -/
def poolOf (store : Store) (settings : Settings) : Checked Pool :=
  match store.load with
  | some s => Pool.ofSnapshot s
  | none => Pool.create settings

/-- Puts a pool in operation over a store. The settings count only if the store
holds nothing. -/
def start (parties : Parties) (store : Store) (now : Nat) (settings : Settings) :
    Checked Custody := do
  return { parties, store, events := [], now, metrics := Metrics.empty,
           pool := ← poolOf store settings }

/-- Puts the pool in operation anew, over what its store holds. -/
def restart (c : Custody) (settings : Settings) : Checked Custody := do
  let store ← c.store.reopen
  return { c with store, pool := ← poolOf store settings }

end Custody

end PooledCollateral
