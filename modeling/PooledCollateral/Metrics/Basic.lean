/-
PooledCollateral.Metrics.Basic — what is counted and measured.

Operations are counted by kind and outcome, rejections by kind and family, and
the timed kinds by how often they ran. Two plain counters add up rollbacks and
redeemed backing asset, and four gauges show the totals after the last success.
Measured values are kept to fifty-three binary digits.
-/
import PooledCollateral.Decimal.Significand
import PooledCollateral.Snapshot.Basic

namespace PooledCollateral

/-! ## Tallies -/

/-- How often each of some keys has come up. -/
structure Tally (κ : Type) where
  counts : List (κ × Nat)

namespace Tally

variable {κ : Type} [DecidableEq κ]

/-- Nothing has come up. -/
def empty : Tally κ := ⟨[]⟩

/-- The count of a key. -/
def count (t : Tally κ) (k : κ) : Nat := (t.counts.lookup k).getD 0

/-- Counts a key once more. -/
def bump (t : Tally κ) (k : κ) : Tally κ :=
  ⟨(k, t.count k + 1) :: t.counts.filter fun entry => entry.1 ≠ k⟩

end Tally

/-! ## Metrics -/

/-- The kinds of operations that are counted. -/
inductive OperationKind
  | enter
  | exit
  | selfCloseExit
  | withdrawFees
  | payFeeDebt
  | transfer
  | depositFees
  | receiveCollateral
  | payout
  | updateSettings
  deriving DecidableEq

/-- The name under which a kind is counted. -/
def OperationKind.label : OperationKind → String
  | enter => "enter"
  | exit => "exit"
  | selfCloseExit => "self_close_exit"
  | withdrawFees => "withdraw_fees"
  | payFeeDebt => "pay_fee_debt"
  | transfer => "transfer"
  | depositFees => "deposit_fees"
  | receiveCollateral => "receive_collateral"
  | payout => "payout"
  | updateSettings => "update_config"

/-- How a counted operation ended. -/
inductive Ending
  | ok
  | rejected
  deriving DecidableEq

/-- The name under which an ending is counted. -/
def Ending.label : Ending → String
  | ok => "ok"
  | rejected => "rejected"

/-- Everything that is counted and measured. -/
structure Metrics where
  operations : Tally (OperationKind × Ending)
  rejections : Tally (OperationKind × Family)
  /-- How often each timed kind ran. -/
  timings : Tally OperationKind
  rollbacks : Nat
  /-- Backing asset redeemed by self-close exits. -/
  redeemed : Nat
  totalCollateral : Nat
  feeReserve : Nat
  feeDebt : Nat
  shareSupply : Nat

namespace Metrics

/-- Nothing has been counted or measured. -/
def empty : Metrics where
  operations := Tally.empty
  rejections := Tally.empty
  timings := Tally.empty
  rollbacks := 0
  redeemed := 0
  totalCollateral := 0
  feeReserve := 0
  feeDebt := 0
  shareSupply := 0

/-- Counts a success, and shows the totals after it. -/
def success (m : Metrics) (kind : OperationKind) (totals : Totals) : Metrics :=
  { m with
    operations := m.operations.bump (kind, .ok)
    totalCollateral := Decimal.round totals.collateral
    feeReserve := Decimal.round totals.feeReserve
    feeDebt := Decimal.round totals.feeDebt
    shareSupply := Decimal.round totals.supply }

/-- Counts a rejection under its family. -/
def rejection (m : Metrics) (kind : OperationKind) (family : Family) : Metrics :=
  { m with
    operations := m.operations.bump (kind, .rejected)
    rejections := m.rejections.bump (kind, family) }

/-- Counts a run of a timed kind. -/
def timing (m : Metrics) (kind : OperationKind) : Metrics :=
  { m with timings := m.timings.bump kind }

/-- Counts a rollback. -/
def rollback (m : Metrics) : Metrics := { m with rollbacks := Decimal.round (m.rollbacks + 1) }

/-- Adds redeemed backing asset. -/
def redeem (m : Metrics) (amount : Nat) : Metrics :=
  { m with redeemed := Decimal.round (m.redeemed + Decimal.round amount) }

end Metrics

end PooledCollateral
