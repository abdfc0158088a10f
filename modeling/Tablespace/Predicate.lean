import Tablespace.Tuple

/-!
# Predicates

A predicate compares a field of a row with a constant, or with a field of
another row. Values that have no order among each other are unequal, and
neither is less. `LIKE` between texts asks whether the right one stands
somewhere in the left; between other values it is equality. A row without
the field satisfies no predicate.
-/

namespace Tablespace

/-- **How two values are compared.** -/
inductive Comparison where
  | equal
  | greater
  | less
  | atMost
  | atLeast
  | like
  | unequal
  deriving DecidableEq

namespace Comparison

/-- All comparisons. -/
def all : List Comparison :=
  [equal, greater, less, atMost, atLeast, like, unequal]

/-- The written form of a comparison. -/
def render : Comparison → String
  | equal => "="
  | greater => ">"
  | less => "<"
  | atMost => "<="
  | atLeast => ">="
  | like => "LIKE"
  | unequal => "<>"

/-- Whether values in an order, or in none, compare so. -/
def admits : Comparison → Option Ordering → Bool
  | equal, o => o = some .eq
  | like, o => o = some .eq
  | unequal, o => o ≠ some .eq
  | greater, o => o = some .gt
  | less, o => o = some .lt
  | atMost, o => o = some .lt || o = some .eq
  | atLeast, o => o = some .gt || o = some .eq

/-- **Whether two values compare so.** -/
def holds : Comparison → (left right : Value) → Bool
  | like, .str text, .str part => Text.occursIn part.toList text.toList
  | c, left, right => c.admits (left.compare? right)

end Comparison

/-- **A predicate on a row**: a field against a constant. -/
structure Predicate where
  /-- The position of the field. -/
  field : Nat
  /-- How it is compared. -/
  comparison : Comparison
  /-- What it is compared with. -/
  operand : Value
  deriving DecidableEq

/-- Whether a row satisfies a predicate. -/
def Predicate.holds (p : Predicate) (row : Tuple) : Bool :=
  match row.value? p.field with
  | some v => p.comparison.holds v p.operand
  | none => false

/-- The written form of a predicate. -/
def Predicate.render (p : Predicate) : String :=
  "$" ++ p.field.repr ++ " " ++ p.comparison.render ++ " " ++ p.operand.render

/-- **A predicate on two rows**: a field of one against a field of the
other. -/
structure JoinPredicate where
  /-- The position of the field in the left row. -/
  left : Nat
  /-- How the fields are compared. -/
  comparison : Comparison
  /-- The position of the field in the right row. -/
  right : Nat
  deriving DecidableEq

/-- Whether two rows satisfy a predicate. -/
def JoinPredicate.holds (p : JoinPredicate) (left right : Tuple) : Bool :=
  match left.value? p.left, right.value? p.right with
  | some v, some w => p.comparison.holds v w
  | _, _ => false

end Tablespace
