import Biotope.World

/-!
# Taking and returning creatures

The operations a program or an engine may perform on the pool. Each enters the pool
once and is done before another begins.
-/

namespace Biotope.Pool

open Act

def liveSpecies : Act (List SpeciesId) := entering do return (← getPool).ids

/-! ## Choice -/

/-- A uniformly chosen live species, or `SpeciesId.any` of an empty pool. -/
def randomSpecies (p : Pool) : Draw SpeciesId :=
  if h : 0 < p.ids.length then do
    let i ← Stream.belowHalf p.ids.length h
    return p.ids[i]
  else return .any

def sampleMember (p : Pool) : Draw (Option Gene) := do
  match p.find? (← p.randomSpecies) with
  | some s => s.sample
  | none => return none

/-! ## Taking -/

/-- Takes a random member out of the bucket. The last one takes its species along. -/
def takeFrom (id : SpeciesId) (s : Species) : Act (Option Gene) := do
  match ← draw s.select with
  | none => return none
  | some (creature, rest) =>
    modifyPool (·.setBucket id rest)
    discard <| count .creatures Gauge.decrement
    if rest.isExtinct then
      modifyPool (·.eraseBucket id)
      discard <| count .species Gauge.decrement
      modifyPool heat
      note (.extinct id)
    return some creature

/-- Takes a creature of the species out of the pool, or of a random one. -/
def take (id : SpeciesId) : Act (Option Gene) := entering do
  let p ← getPool
  if p.buckets.isEmpty then return none
  let id ← if id.isAny then draw p.randomSpecies else pure id
  match p.find? id with
  | none => return none
  | some s => takeFrom id s

/-! ## Returning -/

def insert (creature : Gene) : Act Unit := do
  let p ← getPool
  let id := creature.species
  let bucket := p.find? id
  modifyPool (·.setBucket id ((bucket.getD {}).add creature))
  record creature
  discard <| count .creatures Gauge.increment
  if bucket.isNone then
    discard <| count .species Gauge.increment
    modifyPool cool
    note (.founded id)

def put (creature : Gene) : Act Unit := entering (insert creature)

/-! ## Requests -/

/-- The species that a request is passed on to, if it is served at all. -/
def assign (id : SpeciesId) : Act (Option SpeciesId) := do
  if !id.isAny then return some id
  match (← get).service with
  | .chance => return some id
  | .closed => return none
  | .turns limit served =>
    if limit ≤ served then return none
    let ids ← liveSpecies
    match ids[served % ids.length]? with
    | none => return none
    | some id =>
      modify ({ · with service := .turns limit (served + 1) })
      return some id

def rehearse : Act Unit := do
  let w ← get
  match w.drill with
  | none => return
  | some d =>
    match d.left with
    | 0 => set { w with drill := none }; throw (.drill d.message)
    | n + 1 => set { w with drill := some { d with left := n } }

def request (id : SpeciesId) : Act (Option Gene) := do
  match ← assign id with
  | none => return none
  | some id =>
    rehearse
    take id

/-! ## Temperature and marks -/

def getTemperature : Act Probability := entering do return (← getPool).temperature

def setTemperature (t : Probability) : Act Unit := entering do
  modifyPool ({ · with temperature := t })

/-- A toss on the chance that the probability and the temperature both say yes. -/
def flip (p : Probability) : Act Bool := do
  let t ← getTemperature
  draw (p.and t).toss

def pick : Act SpeciesId := entering do draw (← getPool).randomSpecies

def resetWaterMarks : Act Unit := entering (modifyPool resetMarks)

end Biotope.Pool
