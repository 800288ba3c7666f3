import Biotope.Gauge
import Biotope.Gene.Shape
import Biotope.Species

/-!
# Pools

A pool keeps creatures in one bucket a species, in the order of the identifiers, and
beside them a temperature and three gauges. A new species cools the pool and an
extinct one heats it, between a floor and a ceiling.
-/

namespace Biotope

inductive Tally where
  | genes | species | creatures
deriving DecidableEq, Repr

structure Pool where
  /-- Buckets by identifier, ascending. -/
  buckets : List (SpeciesId × Species) := []
  temperature : Probability := .even
  genes : Gauge := {}
  species : Gauge := {}
  creatures : Gauge := {}
deriving Inhabited

namespace Pool

/-! ## Buckets -/

def find? (p : Pool) (id : SpeciesId) : Option Species :=
  (p.buckets.find? (·.1 == id)).map (·.2)

/-- Puts a bucket into a list, over one of the same identifier or in its place. -/
def insertBucket (id : SpeciesId) (s : Species) :
    List (SpeciesId × Species) → List (SpeciesId × Species)
  | [] => [(id, s)]
  | b :: bs =>
    if b.1 = id then (id, s) :: bs
    else if id.value < b.1.value then (id, s) :: b :: bs
    else b :: insertBucket id s bs

def setBucket (p : Pool) (id : SpeciesId) (s : Species) : Pool :=
  { p with buckets := insertBucket id s p.buckets }

def eraseBucket (p : Pool) (id : SpeciesId) : Pool :=
  { p with buckets := p.buckets.filter (·.1 != id) }

/-- The live identifiers, ascending. -/
def ids (p : Pool) : List SpeciesId := p.buckets.map (·.1)

/-- The number of members of a species, zero if it is not there. -/
def sizeOf (p : Pool) (id : SpeciesId) : Nat := (p.find? id).elim 0 Species.size

def creatureList (p : Pool) : List Gene := p.buckets.flatMap fun b => b.2.members.toList

/-! ## Gauges -/

def gauge (p : Pool) : Tally → Gauge
  | .genes => p.genes
  | .species => p.species
  | .creatures => p.creatures

def setGauge (p : Pool) (t : Tally) (g : Gauge) : Pool :=
  match t with
  | .genes => { p with genes := g }
  | .species => { p with species := g }
  | .creatures => { p with creatures := g }

def resetMarks (p : Pool) : Pool :=
  { p with
    genes := p.genes.resetMarks
    species := p.species.resetMarks
    creatures := p.creatures.resetMarks }

/-- No creature, all gauges at zero; the temperature stays. -/
def clear (p : Pool) : Pool := { temperature := p.temperature }

/-! ## Temperature -/

/-- The step of the temperature at every speciation and extinction. -/
def delta : Float := 0.00001

/-- Steps end twice the step above zero. -/
def floor : Float := 2.0 * delta

/-- Steps end twice the step below one. -/
def ceiling : Float := 1.0 - 2.0 * delta

def adjust (p : Pool) (step : Float) : Pool :=
  let next := p.temperature.value + step
  let next := if next < floor then floor else if ceiling < next then ceiling else next
  { p with temperature := .clamp next }

def heat (p : Pool) : Pool := p.adjust delta

def cool (p : Pool) : Pool := p.adjust (-delta)

end Pool

end Biotope
