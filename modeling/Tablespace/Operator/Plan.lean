import Tablespace.Operator.Rows
import Tablespace.Operator.Scan
import Tablespace.Operator.Filter
import Tablespace.Operator.Join
import Tablespace.Operator.Aggregate

/-!
# Plans

A plan says which rows are wanted: rows at hand, the rows of a table, or
what a filter, a join or an aggregation makes of the rows of other plans. A
plan does not change. What changes while its rows are given is its state,
whose type follows the shape of the plan (`Plan.State`), and `Plan.operator`
says how.
-/

namespace Tablespace

/-- **Which rows are wanted.** -/
inductive Plan where
  /-- Rows at hand, of any schemas, under a schema of their own. -/
  | rows (schema : Schema) (list : List Tuple)
  /-- The rows of a table. -/
  | scan (scan : TableScan)
  /-- The rows that satisfy a predicate. -/
  | filter (predicate : Predicate) (below : Plan)
  /-- The pairs of rows that satisfy a predicate. -/
  | join (predicate : JoinPredicate) (left right : Plan)
  /-- One row for each group of rows. -/
  | aggregate (aggregation : Aggregation) (below : Plan)

namespace Plan

/-- **The columns of the rows.** -/
def schema : Plan → Schema
  | rows schema _ => schema
  | scan s => s.schema
  | filter _ below => below.schema
  | join _ left right => left.schema.append right.schema
  | aggregate a _ => a.schema

/-- **The plan of an aggregation of a column**, if the rows below admit
it. -/
def aggregating (fn : AggregateFn) (column : Nat) (group : Option Nat) (below : Plan) :
    Except Fault Plan := do
  let a ← Aggregation.ofSchema fn column group below.schema
  return aggregate a below

/-- **What changes while the rows of a plan are given.** -/
def State : Plan → Type
  | rows _ _ => Option Nat
  | scan _ => Option (HeapScan × ScanPosition)
  | filter _ below => Option Tuple × below.State
  | join _ left right => JoinState left.State right.State
  | aggregate _ below => AggregateState below.State

/-- **The state of a closed plan.** -/
def closed : (p : Plan) → p.State
  | rows _ _ => (none : Option Nat)
  | scan _ => (none : Option (HeapScan × ScanPosition))
  | filter _ below => ((none, below.closed) : Option Tuple × below.State)
  | join _ left right =>
    (⟨none, none, false, left.closed, right.closed⟩ : JoinState left.State right.State)
  | aggregate _ below => (⟨[], none, none, below.closed⟩ : AggregateState below.State)

/-- **How the rows of a plan are given.** -/
def operator : (p : Plan) → Operator p.State
  | rows _ list => Operator.ofRows list
  | scan s => Operator.ofTable s
  | filter predicate below => below.operator.filter predicate
  | join predicate left right =>
    left.operator.join predicate (left.schema.append right.schema) right.operator
  | aggregate a below => below.operator.aggregate a

/-- The transactions whose locks a plan takes. -/
def txns : Plan → List TxnId
  | rows _ _ => []
  | scan s => [s.txn]
  | filter _ below => below.txns
  | join _ left right => left.txns ++ right.txns
  | aggregate _ below => below.txns

end Plan

end Tablespace
