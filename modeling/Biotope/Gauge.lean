/-!
# Gauges

A gauge counts in 64 bits and remembers its extremes since the last reset. A step
past the end of the range is a fault: the count has wrapped by then, the marks have
not moved.
-/

namespace Biotope

/-- Why an operation broke off. The state it reached stays. -/
inductive Fault where
  | sumOverflow
  | differenceOverflow
  /-- The total of opcode weights is not finite. -/
  | weightTotal
  /-- A drill; its message, if it has one. -/
  | drill (message : Option String)
deriving Repr, DecidableEq

namespace Fault

/-- What is reported of a worker that died of the fault. -/
def message : Fault → String
  | sumOverflow => "attempt to add with overflow"
  | differenceOverflow => "attempt to subtract with overflow"
  | weightTotal => "range overflow"
  | drill (some m) => m
  | drill none => "unknown panic"

end Fault

/-- A count and its least and greatest value since the last reset. -/
structure Gauge where
  current : Int64 := 0
  low : Int64 := 0
  high : Int64 := 0
deriving Repr, DecidableEq, Inhabited

abbrev Counting := EStateM Fault Gauge

namespace Gauge

def ofValue (v : Int64) : Gauge := ⟨v, v, v⟩

def increment : Counting Int64 := fun g =>
  let v := g.current + 1
  if g.current = Int64.maxValue then .error .sumOverflow { g with current := v }
  else .ok v { g with current := v, high := max g.high v }

def decrement : Counting Int64 := fun g =>
  let v := g.current - 1
  if g.current = Int64.minValue then .error .differenceOverflow { g with current := v }
  else .ok v { g with current := v, low := min g.low v }

/-- Whether the exact sum is a 64-bit number. -/
def fits (v : Int) : Bool := Int64.minValue.toInt ≤ v && v ≤ Int64.maxValue.toInt

def add (amount : Int64) : Counting Int64 := fun g =>
  let v := g.current + amount
  if fits (g.current.toInt + amount.toInt) then
    .ok v { current := v, low := min g.low v, high := max g.high v }
  else .error .sumOverflow { g with current := v }

def resetMarks (g : Gauge) : Gauge := ofValue g.current

end Gauge

end Biotope
