/-
PooledCollateral.Metrics.Exposition — metrics as lines of text.

Every metric is introduced by a line with its purpose and a line with its type,
and has one line per series: the name, the labels in braces, the value. Metrics
come in the order of their names, series in the order of their label values,
labels in the order of their names. A metric without series is left out.
-/
import PooledCollateral.Metrics.Basic

namespace PooledCollateral

/-- One value of a metric, told from others by its labels. -/
structure Series where
  /-- Names and values of the labels, by name. -/
  labels : List (String × String)
  value : Nat

/-- The types of metrics. -/
inductive MetricType
  | counter
  | gauge
  | histogram

/-- The name of a type. -/
def MetricType.label : MetricType → String
  | counter => "counter"
  | gauge => "gauge"
  | histogram => "histogram"

/-- A metric with all its series. -/
structure Metric where
  name : String
  /-- What the metric is for. -/
  help : String
  type : MetricType
  series : List Series

namespace Metric

/-- The labels of a series, in braces. -/
def labelText (labels : List (String × String)) : String :=
  if labels.isEmpty then ""
  else "\x7b" ++ ",".intercalate (labels.map fun (name, value) => name ++ "=\"" ++ value ++ "\"") ++
    "\x7d"

/-- The name that stands before the values: of a histogram, the number of its
measurements. -/
def valueName (m : Metric) : String :=
  match m.type with
  | .histogram => m.name ++ "_count"
  | _ => m.name

/-- The lines of a metric. -/
def lines (m : Metric) : List String :=
  if m.series.isEmpty then []
  else ("# HELP " ++ m.name ++ " " ++ m.help) :: ("# TYPE " ++ m.name ++ " " ++ m.type.label) ::
    m.series.map fun s => m.valueName ++ labelText s.labels ++ " " ++ Decimal.text s.value

/-- A metric with a single series and no labels. -/
def plain (name help : String) (type : MetricType) (value : Nat) : Metric :=
  { name, help, type, series := [{ labels := [], value }] }

end Metric

/-- All kinds of operations, in the order of their names. -/
def OperationKind.all : List OperationKind :=
  [depositFees, enter, exit, payFeeDebt, payout, receiveCollateral, selfCloseExit, transfer,
   updateSettings, withdrawFees]

/-- All families, in the order of their names. -/
def Family.all : List Family := [authorization, collaborator, invariant, validation]

/-- The series of the keys that have come up. -/
def Tally.series {κ : Type} [DecidableEq κ] (t : Tally κ) (keys : List κ)
    (labels : κ → List (String × String)) : List Series :=
  (keys.filter fun k => t.count k ≠ 0).map fun k => { labels := labels k, value := t.count k }

namespace Metrics

/-- The keys under which operations are counted, in the order of their names. -/
def operationKeys : List (OperationKind × Ending) :=
  OperationKind.all.flatMap fun kind => [(kind, .ok), (kind, .rejected)]

/-- The keys under which rejections are counted, in the order of their names. -/
def rejectionKeys : List (OperationKind × Family) :=
  Family.all.flatMap fun family => OperationKind.all.map fun kind => (kind, family)

/-- All metrics, in the order of their names. -/
def all (m : Metrics) : List Metric :=
  [.plain "pool_fee_debt" "Sum of holder fee debt" .gauge m.feeDebt,
   .plain "pool_fee_reserve" "Backing-asset fee income held for holders" .gauge m.feeReserve,
   { name := "pool_operation_duration_seconds"
     help := "Time spent in pool operations"
     type := .histogram
     series := m.timings.series OperationKind.all fun kind => [("operation", kind.label)] },
   { name := "pool_operations_total"
     help := "Pool operations by kind and outcome"
     type := .counter
     series := m.operations.series operationKeys fun (kind, ending) =>
       [("operation", kind.label), ("outcome", ending.label)] },
   { name := "pool_rejections_total"
     help := "Rejected pool operations by error family"
     type := .counter
     series := m.rejections.series rejectionKeys fun (kind, family) =>
       [("family", family.label), ("operation", kind.label)] },
   .plain "pool_rollbacks_total" "Operations rolled back after a mutation" .counter m.rollbacks,
   .plain "pool_self_close_redeemed_total" "Backing asset redeemed by self-close exits" .counter
     m.redeemed,
   .plain "pool_share_supply" "Pool shares outstanding" .gauge m.shareSupply,
   .plain "pool_total_collateral" "Collateral attributable to the pool" .gauge m.totalCollateral]

/-- The lines of all metrics. -/
def lines (m : Metrics) : List String := m.all.flatMap Metric.lines

end Metrics

end PooledCollateral
