import Biotope.Decimal.Layout
import Biotope.Stream

/-!
# Probabilities

A chance in the closed unit interval. Every stochastic decision goes through this
type, so no other value can reach a coin toss. Rounding keeps products, and
complements of products of complements, inside the interval; `clamp` is what makes
that visible in the type.
-/

namespace Biotope

structure Probability where
  value : Float
  inUnit : 0.0 ≤ value ∧ value ≤ 1.0

namespace Probability

instance : BEq Probability := ⟨fun p q => p.value == q.value⟩

def never : Probability := ⟨0.0, by decide +kernel⟩
def even : Probability := ⟨0.5, by decide +kernel⟩
def always : Probability := ⟨1.0, by decide +kernel⟩

instance : Inhabited Probability := ⟨even⟩

def ofFloat? (x : Float) : Option Probability :=
  if h : 0.0 ≤ x ∧ x ≤ 1.0 then some ⟨x, h⟩ else none

def clamp (x : Float) : Probability :=
  if h : 0.0 ≤ x ∧ x ≤ 1.0 then ⟨x, h⟩ else if 1.0 < x then always else never

/-- The chance that both events happen. -/
def and (p q : Probability) : Probability := clamp (p.value * q.value)

/-- The chance that at least one event happens. -/
def or (p q : Probability) : Probability := clamp (1.0 - (1.0 - p.value) * (1.0 - q.value))

def sample : Draw Probability := do return clamp (← Stream.unit)

/-- One draw decides, also when the outcome is certain. -/
def toss (p : Probability) : Draw Bool := do return decide ((← Stream.unit) < p.value)

def text (p : Probability) : String := Decimal.fixed 5 p.value

end Probability

end Biotope
