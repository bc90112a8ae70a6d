/-
PooledCollateral.Pool.Checkpoint — a pool put back to an earlier state.

A checkpoint keeps the totals, the settings and what belongs to a list of
holders. Restoring it undoes every change since, provided nothing of other
holders has changed.
-/
import PooledCollateral.Pool.Basic

namespace PooledCollateral

/-- What belonged to one holder. -/
structure CheckpointRow where
  holder : Address
  account : Option Account
  debt : Nat
  credit : Nat

/-- The state of a pool as far as an operation may change it. -/
structure Checkpoint where
  settings : Settings
  totals : Totals
  rows : List CheckpointRow

namespace Pool

/-- Keeps the state of a pool for a list of holders. -/
def checkpoint (pool : Pool) (holders : List Address) : Checkpoint where
  settings := pool.settings
  totals := pool.totals
  rows := holders.map fun holder =>
    { holder, account := pool.shares.accounts.get? holder, debt := pool.debtOf holder,
      credit := pool.creditOf holder }

/-- Puts back what belonged to one holder. -/
def putRow (pool : Pool) (row : CheckpointRow) : Pool :=
  { pool with
    shares := pool.shares.putAccount row.holder row.account
    fees := { pool.fees with
      debts := pool.fees.debts.set row.holder row.debt
      credits := pool.fees.credits.set row.holder row.credit } }

/-- Puts back the totals. -/
def putTotals (pool : Pool) (totals : Totals) : Pool :=
  { pool with
    collateral := totals.collateral
    feeReserve := totals.feeReserve
    shares := { pool.shares with supply := totals.supply }
    fees := { pool.fees with totalDebt := totals.feeDebt, totalCredit := totals.feeCredit } }

/-- Puts a pool back to a checkpoint. -/
def restore (pool : Pool) (mark : Checkpoint) : Pool :=
  mark.rows.foldl putRow ({ pool with settings := mark.settings }.putTotals mark.totals)

end Pool

end PooledCollateral
