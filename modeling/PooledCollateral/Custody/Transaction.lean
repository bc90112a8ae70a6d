/-
PooledCollateral.Custody.Transaction — an operation succeeds as a whole or not
at all.

A transaction changes the pool, commits what it touched to the store, and only
then deals with the parties. If the change or the commit fails, the pool is put
back to its checkpoint; if a dealing fails, the pool is put back, the tokens
pulled so far are handed back, newest first, and the old rows are committed
again. If the store refuses that second commit, it keeps the rows of the change
that did not take place; the operation fails as before.
-/
import PooledCollateral.Custody.Basic

namespace PooledCollateral

/-- Tokens that were pulled from an owner into the pool's account. -/
structure Pull where
  asset : Asset
  owner : Address
  amount : Nat

/-- The state of the dealings of one operation. -/
structure Errand where
  parties : Parties
  /-- The pulls so far, oldest first. -/
  pulls : List Pull

namespace Errand

/-- An action on the parties. -/
def onParties {α : Type} (act : Action Parties α) : Action Errand α :=
  act.onPart (·.parties) fun errand parties => { errand with parties }

/-- Pulls an amount from an owner into the pool's account, on the owner's
approval. -/
def pull (asset : Asset) (owner : Address) (amount : Nat) : Action Errand Unit := do
  if amount = 0 then return
  let account := (← get).parties.poolAccount
  onParties (Parties.onToken asset (TokenBook.transferFrom account owner account amount))
  modify fun errand => { errand with pulls := errand.pulls ++ [{ asset, owner, amount }] }

/-- Refuses if the pool's account does not hold an amount. -/
def requireHolding (asset : Asset) (amount : Nat) : Action Errand Unit := do
  (← get).parties.requireHolding asset amount

/-- Sends an amount from the pool's account. -/
def release (asset : Asset) (receiver : Address) (amount : Nat) : Action Errand Unit :=
  onParties (Parties.release asset receiver amount)

end Errand

/-- Hands a pull back. Nothing happens beyond what can be sent. -/
def Parties.handBack (p : Parties) (pull : Pull) : Parties :=
  (Parties.release pull.asset pull.owner pull.amount).stateAfter p

namespace Custody

/-- Undoes an operation whose dealings failed. Whether the store takes the old
rows back makes no difference to anything else. -/
def rollBack (c : Custody) (mark : Checkpoint) (touched : List Address) (pulls : List Pull) :
    Custody :=
  let pool := c.pool.restore mark
  { c with
    pool
    store := (Store.commit (pool.delta touched)).stateAfter c.store
    parties := pulls.reverse.foldl Parties.handBack c.parties
    metrics := c.metrics.rollback }

/-- Changes the pool and deals with the parties, as a whole or not at all. The
change may touch the rows of the given holders only. -/
def transact {α β : Type} (touched : List Address) (change : Action Pool α)
    (deal : α → Action Errand β) : Action Custody (α × β) := fun c =>
  let mark := c.pool.checkpoint touched
  match change.run c.pool with
  | .error e pool => .error e { c with pool := pool.restore mark }
  | .ok a pool =>
    match (Store.commit (pool.delta touched)).run c.store with
    | .error e store => .error e { c with pool := pool.restore mark, store }
    | .ok _ store =>
      match (deal a).run { parties := c.parties, pulls := [] } with
      | .ok b errand => .ok (a, b) { c with pool, store, parties := errand.parties }
      | .error e errand =>
        let failed := { c with pool, store, parties := errand.parties }
        .error e (failed.rollBack mark touched errand.pulls)

/-- Counts how an operation ended, and publishes its events if it succeeded. -/
def concluded {α : Type} (kind : OperationKind) (act : Action Custody (α × List Event)) :
    Action Custody α := fun c =>
  match act.run c with
  | .ok (a, events) c =>
    .ok a { c with
      events := c.events ++ events
      metrics := c.metrics.success kind c.pool.totals }
  | .error (.rejected cause) c =>
    .error (.rejected cause) { c with metrics := c.metrics.rejection kind cause.family }
  | .error .fault c => .error .fault c

/-- Counts that an operation of a timed kind ran. -/
def timed {α : Type} (kind : OperationKind) (act : Action Custody α) : Action Custody α := do
  modify fun c => { c with metrics := c.metrics.timing kind }
  act

end Custody

end PooledCollateral
