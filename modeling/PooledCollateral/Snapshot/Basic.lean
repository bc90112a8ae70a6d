/-
PooledCollateral.Snapshot.Basic — the state of a pool as plain records.

A snapshot holds the totals, the settings and one row per holder. A delta holds
the same for the holders that one operation touched; applying it to a snapshot
replaces, inserts or removes their rows, an empty row standing for none. The
rows of a snapshot are kept by ascending address; one that is not in order is
taken as it is, and its rows are sought by halving all the same.
-/
import PooledCollateral.Bisect
import PooledCollateral.LockQueue
import PooledCollateral.Settings.Basic

namespace PooledCollateral

/-- The quantities a pool keeps as a whole. -/
structure Totals where
  collateral : Nat
  /-- Backing-asset fees held for the holders. -/
  feeReserve : Nat
  feeDebt : Nat
  feeCredit : Nat
  /-- Shares outstanding. -/
  supply : Nat
  deriving DecidableEq

/-- What a pool keeps for one holder. -/
structure HolderRow where
  address : Address
  balance : Nat
  feeDebt : Nat
  feeCredit : Nat
  /-- The locks on the holder's shares, oldest first. -/
  locks : List Lock
  deriving DecidableEq

/-- Whether there is nothing to keep for the holder. -/
def HolderRow.isEmpty (row : HolderRow) : Bool :=
  row.balance = 0 && row.feeDebt = 0 && row.feeCredit = 0 && row.locks.isEmpty

/-- The whole state of a pool. -/
structure Snapshot where
  totals : Totals
  settings : Settings
  rows : List HolderRow
  deriving DecidableEq

/-- The part of the state that one operation touched. -/
structure Delta where
  totals : Totals
  settings : Settings
  /-- The rows of the touched holders; an empty row means there is none. -/
  rows : List HolderRow
  deriving DecidableEq

/-- The order of two addresses. -/
def Address.order (a b : Address) : Ordering := compare a.toNat b.toNat

namespace Snapshot

/-- Rows with the row of one holder written. -/
def writeRow (rows : List HolderRow) (row : HolderRow) : List HolderRow :=
  match Bisect.search (fun other => other.address.order row.address) rows with
  | .found i => if row.isEmpty then rows.eraseIdx i else rows.set i row
  | .missing i => if row.isEmpty then rows else rows.insertIdx i row

/-- The snapshot after a delta. -/
def apply (s : Snapshot) (delta : Delta) : Snapshot where
  totals := delta.totals
  settings := delta.settings
  rows := delta.rows.foldl writeRow s.rows

/-- The snapshot that a first delta makes of nothing. -/
def ofDelta (delta : Delta) : Snapshot :=
  apply { totals := delta.totals, settings := delta.settings, rows := [] } delta

/-- The snapshot after a delta, whether or not there was one before. -/
def fold (current : Option Snapshot) (delta : Delta) : Snapshot :=
  match current with
  | none => ofDelta delta
  | some s => s.apply delta

end Snapshot

end PooledCollateral
