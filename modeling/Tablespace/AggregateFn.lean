/-!
# Aggregate functions

The five functions that a column of a group of rows is reduced by.
-/

namespace Tablespace

/-- **An aggregate function.** -/
inductive AggregateFn where
  | min
  | max
  | sum
  | avg
  | count
  deriving DecidableEq

/-- All aggregate functions. -/
def AggregateFn.all : List AggregateFn :=
  [min, max, sum, avg, count]

/-- The written form of an aggregate function. -/
def AggregateFn.render : AggregateFn → String
  | min => "min"
  | max => "max"
  | sum => "sum"
  | avg => "avg"
  | count => "count"

end Tablespace
