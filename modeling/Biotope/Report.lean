import Biotope.Evolution.Supervision

/-!
# Reports

A report shows the gauges and the temperature of the pool and the state of an engine.
Its ten readings are taken one after another, each on its own.
-/

namespace Biotope

structure Report where
  genes : Gauge
  species : Gauge
  creatures : Gauge
  temperature : Probability
  engine : Evolution.EngineView
  generations : Int64

namespace Report

open Act

def reading (t : Tally) (mark : Gauge → Int64) : Act Int64 := Act.entering do
  return mark ((← getPool).gauge t)

def gauge (t : Tally) : Act Gauge := do
  let current ← reading t Gauge.current
  let low ← reading t Gauge.low
  let high ← reading t Gauge.high
  return ⟨current, low, high⟩

def capture (engine : Engine) : Act Report := do
  let genes ← gauge .genes
  let species ← gauge .species
  let creatures ← gauge .creatures
  let temperature ← Pool.getTemperature
  return ⟨genes, species, creatures, temperature, .of engine, engine.generations⟩

def announce (r : Report) : Act Unit := do
  note (.progress r.generations r.engine.active r.temperature)
  note (.tallies r.creatures r.species r.genes)

def round (engine : Engine) : Act Report := do
  let r ← capture engine
  Pool.resetWaterMarks
  return r

/-- A report after each of the acts, with what the act yields. -/
def watch {α} (engine : Engine) : List (Act α) → Act (List (α × Report))
  | [] => return []
  | a :: as => do
    let x ← a
    let r ← round engine
    return (x, r) :: (← watch engine as)

end Report

end Biotope
