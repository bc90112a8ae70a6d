/-
PooledCollateral.Pool.Records — a pool as records, and back.

`snapshot` writes a row for every holder that has an account, debt or credit;
`delta` writes the rows of given holders. `ofSnapshot` builds a pool from
records and refuses totals that are not the sums of the rows.
-/
import PooledCollateral.Pool.Checkpoint

namespace PooledCollateral.Pool

/-- The row of a holder. -/
def holderRow (pool : Pool) (holder : Address) : HolderRow where
  address := holder
  balance := pool.balanceOf holder
  feeDebt := pool.debtOf holder
  feeCredit := pool.creditOf holder
  locks := (pool.shares.locksOf holder).locks

/-- The records of given holders. -/
def delta (pool : Pool) (holders : List Address) : Delta where
  totals := pool.totals
  settings := pool.settings
  rows := holders.map pool.holderRow

/-- The holders with an account, debt or credit, by ascending address. -/
def holders (pool : Pool) : List Address :=
  let all := pool.shares.accounts.keys ++ pool.fees.debts.keys ++ pool.fees.credits.keys
  (all.foldl (fun (seen : Table Unit) holder => seen.insert holder ()) Table.empty).keys

/-- The records of the whole pool. -/
def snapshot (pool : Pool) : Snapshot where
  totals := pool.totals
  settings := pool.settings
  rows := pool.holders.map pool.holderRow

/-- The sums of balances, debts and credits over the rows so far. -/
structure RowSums where
  balance : Nat
  debt : Nat
  credit : Nat

/-- The sums with one more row. -/
def RowSums.add (sums : RowSums) (row : HolderRow) : Checked RowSums := do
  return { balance := ← Amount.add sums.balance row.balance
           debt := ← Amount.add sums.debt row.feeDebt
           credit := ← Amount.add sums.credit row.feeCredit }

/-- What belongs to the holder of a row. -/
def checkpointRow (row : HolderRow) : CheckpointRow where
  holder := row.address
  account := some { balance := row.balance, locks := ⟨row.locks⟩ }
  debt := row.feeDebt
  credit := row.feeCredit

/-- The pool that a snapshot records. -/
def ofSnapshot (s : Snapshot) : Checked Pool := do
  let pool ← create s.settings
  let sums ← s.rows.foldlM RowSums.add { balance := 0, debt := 0, credit := 0 }
  require (sums.balance = s.totals.supply ∧ sums.debt = s.totals.feeDebt
      ∧ sums.credit = s.totals.feeCredit)
    (.storage (.totalsMismatch (sums.balance, s.totals.supply) (sums.debt, s.totals.feeDebt)
      (sums.credit, s.totals.feeCredit)))
  return ((s.rows.map checkpointRow).foldl putRow pool).putTotals s.totals

end PooledCollateral.Pool
