import Biotope.Pool.Basic

/-!
# Censuses

A census is the whole content of a pool at one moment. A pool can be built from one if
every bucket has members and every member is of the species of its bucket; the gauges
are taken as they are.
-/

namespace Biotope

structure Census where
  temperature : Probability
  genes : Gauge
  species : Gauge
  creatures : Gauge
  /-- Buckets by identifier, ascending. -/
  buckets : List (SpeciesId × Species)

inductive CensusError where
  /-- The species has no members. -/
  | vacant (id : SpeciesId)
  /-- A creature of one species is filed under another. -/
  | misfiled (species id : SpeciesId)
deriving DecidableEq, Repr

def CensusError.message : CensusError → String
  | vacant id => "Species " ++ id.text ++ " has no members"
  | misfiled species id =>
    "Creature of species " ++ species.text ++ " stored under " ++ id.text

namespace Census

def bucketError? (id : SpeciesId) (s : Species) : Option CensusError :=
  if s.isExtinct then some (.vacant id)
  else (s.members.toList.find? (·.species != id)).map fun g => .misfiled g.species id

def error? (c : Census) : Option CensusError :=
  c.buckets.findSome? fun b => bucketError? b.1 b.2

def toPool (c : Census) : Except CensusError Pool :=
  match c.error? with
  | some e => .error e
  | none => .ok ⟨c.buckets, c.temperature, c.genes, c.species, c.creatures⟩

end Census

namespace Pool

def census (p : Pool) : Census := ⟨p.temperature, p.genes, p.species, p.creatures, p.buckets⟩

end Pool

def sameBuckets : List (SpeciesId × Species) → List (SpeciesId × Species) → Bool
  | [], [] => true
  | (i, s) :: bs, (j, t) :: cs =>
    i == j && Gene.sameAll s.members.toList t.members.toList && sameBuckets bs cs
  | _, _ => false

/-- Equality, probabilities being compared as numbers. -/
def Census.same (c d : Census) : Bool :=
  c.temperature == d.temperature && c.genes == d.genes && c.species == d.species &&
  c.creatures == d.creatures && sameBuckets c.buckets d.buckets

end Biotope
