import Biotope.Failure
import Biotope.Pool.Exchange

/-!
# Seeding

Seeding replaces the population by freshly grown creatures. Settings are checked before
anything changes.
-/

namespace Biotope.Pool

open Act

/-- Grows a creature, its genes being counted on the gauge of the pool. -/
def grown (g : Grower) (source : TemplateSource) : Act Gene := fun w =>
  match g.creature source ⟨w.pool.genes, w.stream, 0⟩ with
  | .ok a plot =>
    .ok a { w with pool := { w.pool with genes := plot.genes }, stream := plot.stream }
  | .error f plot =>
    .error f { w with pool := { w.pool with genes := plot.genes }, stream := plot.stream }

/-- Grows creatures without templates to borrow. -/
def grownAll (g : Grower) : Nat → Act (List Gene)
  | 0 => return []
  | n + 1 => do
    let creature ← grown g .nothing
    return creature :: (← grownAll g n)

def insertAll : List Gene → Act Unit
  | [] => return
  | creature :: creatures => do
    insert creature
    insertAll creatures

/-- Grows creatures one by one; each may borrow from those before it. -/
def settle (g : Grower) : Nat → Act Unit
  | 0 => return
  | n + 1 => do
    let p ← getPool
    insert (← grown g fun _ => p.sampleMember)
    settle g n

/-- How a seeding ends. -/
def close : Act Unit := do
  modifyPool resetMarks
  let p ← getPool
  note (.seeded p.creatures.current p.species.current p.genes.current p.temperature)

/-- Files `n` grown creatures. -/
def sow (n : Nat) (g : Grower) : Act Unit := do
  match g.policy with
  | .template => insertAll (← grownAll g n)
  | .existingSpecies => settle g n
  close

/-- Replaces the population by `n` creatures. -/
def seed (n : Nat) (temperature : Probability) (g : Grower) : Act Unit := entering do
  modifyPool fun p => { p.clear with temperature }
  sow n g

def plan (s : PoolSettings) : Except Fault (Except Failure (Probability × Grower)) :=
  match s.check? with
  | some e => .ok (.error (.settings e))
  | none =>
    match Probability.ofFloat? s.relativeComplexity, Probability.ofFloat? s.initialTemperature with
    | none, _ => .ok (.error (.probability s.relativeComplexity))
    | _, none => .ok (.error (.probability s.initialTemperature))
    | some complexity, some temperature =>
      let grower : Grower := ⟨complexity, s.maximumDepth.toNat, none, s.getPolicy⟩
      match s.opcodeWeights with
      | none => .ok (.ok (temperature, grower))
      | some ws =>
        match Weights.ofList ws with
        | .error f => .error f
        | .ok (.error e) => .ok (.error (.weights e))
        | .ok (.ok ws) => .ok (.ok (temperature, { grower with weights := some ws }))

def seedWith (s : PoolSettings) : Act (Except Failure Unit) := do
  match plan s with
  | .error f => throw f
  | .ok (.error e) => return .error e
  | .ok (.ok (temperature, grower)) =>
    seed s.initialCreatures.toNat temperature grower
    return .ok ()

end Biotope.Pool
