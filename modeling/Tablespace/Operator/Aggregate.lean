import Tablespace.Operator.Basic

/-!
# Aggregation

An aggregation reduces a column of a stream of rows to one number, or to one
number per group: rows with equal values in the grouping column make one
group, and the groups come in the order in which they first appear. Without
rows there are no groups, grouped or not.

Integer columns can be reduced by every function, other columns only
counted. A running sum is a 64-bit integer; the aggregation fails when one
leaves the range, even if later rows would have brought it back. An average
is the sum divided by the number of rows, rounded toward zero.

## Running values

A group is kept as a running value and a count (`Running`). The running
value of a group that has seen no row is zero, and the first row replaces it
for `min` and `max`.
-/

namespace Tablespace

/-- **The running value of a group.** -/
structure Running where
  /-- The least, the greatest, or the sum so far. -/
  value : Int64
  /-- The number of rows so far. -/
  count : Nat
  deriving DecidableEq

/-- The sum of two integers, if it is in the range of 64 bits. -/
def addInRange? (a b : Int64) : Option Int64 :=
  let sum := a.toInt + b.toInt
  if Int64.minValue.toInt ≤ sum ∧ sum ≤ Int64.maxValue.toInt then some (Int64.ofInt sum)
  else none

namespace Running

/-- A group that has seen no row. -/
def none : Running := ⟨0, 0⟩

/-- The value after one more row. -/
def nextValue (r : Running) (fn : AggregateFn) (v : Int64) : Except Fault Int64 :=
  match fn with
  | .min => .ok (if r.count = 0 ∨ v.toInt < r.value.toInt then v else r.value)
  | .max => .ok (if r.count = 0 ∨ r.value.toInt < v.toInt then v else r.value)
  | .sum | .avg =>
    match addInRange? r.value v with
    | some sum => .ok sum
    | Option.none => .error (.overflow fn r.value v)
  | .count => .ok r.value

/-- **The group after one more row.** -/
def add (r : Running) (fn : AggregateFn) (v : Int64) : Except Fault Running :=
  (r.nextValue fn v).map fun value => ⟨value, r.count + 1⟩

/-- **What the group is reduced to.** -/
def result (r : Running) (fn : AggregateFn) : Int64 :=
  match fn with
  | .count => Int64.ofNat r.count
  | .avg => Int64.ofInt (r.value.toInt.tdiv r.count)
  | .min | .max | .sum => r.value

end Running

/-- **The groups so far**, in the order of their first rows. -/
abbrev Groups := List (Option Value × Running)

namespace Groups

/-- The running value of a group. -/
def find (g : Groups) (key : Option Value) : Running :=
  ((g.find? (·.1 = key)).map (·.2)).getD .none

/-- The groups with another running value for one of them, which is the last
if it is new. -/
def put (g : Groups) (key : Option Value) (r : Running) : Groups :=
  if g.any (·.1 = key) then g.map fun e => if e.1 = key then (key, r) else e
  else g ++ [(key, r)]

end Groups

/-- **What is aggregated**: the function, the column it reduces, the column
that makes the groups, and the columns of the result. -/
structure Aggregation where
  /-- The function. -/
  fn : AggregateFn
  /-- The position of the column that is reduced. -/
  column : Nat
  /-- The position of the column that makes the groups. -/
  group : Option Nat
  /-- Whether the column that is reduced holds integers. -/
  numeric : Bool
  /-- The columns of the result. -/
  schema : Schema
  deriving DecidableEq

namespace Aggregation

/-- **The aggregation of a column of a schema**, if it is possible. The
column that is reduced is looked at before the column that makes the
groups. -/
def ofSchema (fn : AggregateFn) (column : Nat) (group : Option Nat) (schema : Schema) :
    Except Fault Aggregation :=
  match schema.column? column with
  | none => .error (.mismatch (.noColumn column))
  | some c =>
    if !c.type.isNumeric && fn ≠ .count then .error (.unsupportedAggregate fn c.type)
    else
      let result : Column := ⟨fn.render ++ "(" ++ c.name ++ ")", .bigint⟩
      match group with
      | none => .ok ⟨fn, column, none, c.type.isNumeric, ⟨[result]⟩⟩
      | some position =>
        match schema.column? position with
        | none => .error (.mismatch (.noColumn position))
        | some k => .ok ⟨fn, column, some position, c.type.isNumeric, ⟨[k, result]⟩⟩

variable (a : Aggregation)

/-- The value of a row at a position that it must have. -/
def field (row : Tuple) (position : Nat) : Except Fault Value :=
  match row.value? position with
  | some v => .ok v
  | none => .error (.mismatch (.noColumn position))

/-- The group that a row belongs to. -/
def key (row : Tuple) : Except Fault (Option Value) :=
  match a.group with
  | none => .ok none
  | some position => (field row position).map some

/-- **The groups after one more row.** -/
def add (g : Groups) (row : Tuple) : Except Fault Groups := do
  let v ← field row a.column
  let key ← a.key row
  if a.numeric then
    match v.asInt? with
    | none => .error (.mismatch (.notInteger v))
    | some n =>
      let r ← (g.find key).add a.fn n
      return g.put key r
  else
    let r := g.find key
    return g.put key { r with count := r.count + 1 }

/-- **The rows of the result**, one for each group. -/
def results (g : Groups) : Except Fault (List Tuple) :=
  g.mapM fun e => Tuple.ofValues a.schema (e.1.toList ++ [.big (e.2.result a.fn)])

end Aggregation

/-- **The state of an aggregation** over an operator with state `σ`. -/
structure AggregateState (σ : Type) where
  /-- The rows of the result. -/
  rows : List Tuple
  /-- The number of rows given, or none when the aggregation is closed. -/
  given : Option Nat
  /-- While the aggregation is being started: the groups so far. -/
  groups : Option Groups
  /-- The state of the operator below. -/
  below : σ

namespace AggregateState

variable {σ : Type}

/-- A turn of the operator below. -/
def inBelow {α : Type} (x : Work σ α) : Work (AggregateState σ) α :=
  x.inPart (·.below) fun b s => { s with below := b }

end AggregateState

namespace Operator

open AggregateState

variable {σ : Type}

/-- Takes the rows of the operator below into the groups. -/
def gather (a : Aggregation) (op : Operator σ) :
    (fuel : Nat) → Groups → Work (AggregateState σ) Groups
  | 0, g => return g
  | fuel + 1, g => do
    if ← inBelow op.hasNext then
      let row ← inBelow op.next
      let g' ← Turn.ofExcept (a.add g row)
      Work.setOwn fun s => { s with groups := some g' }
      op.gather a fuel g'
    else return g

/-- **The operator that gives the rows of an aggregation.** All rows below
are taken when it is started; to rewind it is to give the same rows
again. -/
def aggregate (a : Aggregation) (op : Operator σ) : Operator (AggregateState σ) where
  start := Work.mending (fun s => { s with groups := none }) do
    if (← Work.own).groups.isNone then
      inBelow op.start
      Work.setOwn fun s => { s with groups := some [] }
    let (own, e) ← get
    let groups ← op.gather a (op.bound own.below e + 1) (own.groups.getD [])
    let rows ← Turn.ofExcept (a.results groups)
    Work.setOwn fun s => { s with rows := rows, given := some 0, groups := none }
  hasNext := do
    let own ← Work.own
    match own.given with
    | none => return false
    | some given => return given < own.rows.length
  next := do
    let own ← Work.own
    match own.given, own.given.bind (own.rows[·]?) with
    | some given, some row =>
      Work.setOwn fun s => { s with given := some (given + 1) }
      return row
    | _, _ => Turn.refuse .noSuchElement
  rewind := Work.setOwn fun s => { s with given := s.given.map fun _ => 0 }
  close := fun s => { s with rows := [], given := none, groups := none, below := op.close s.below }
  bound := fun s _ => s.rows.length

end Operator

end Tablespace
