import Biotope.Evolution.Engine
import Biotope.Evolution.Generation

/-!
# Supervised evolution

One worker evolves the pool for a given number of requests while the live species take
turns, so that no chance decides whose creature runs. A worker that dies of a fault
takes only itself along.
-/

namespace Biotope.Evolution

open Act

structure EngineView where
  evolving : Bool
  active : Nat
deriving Repr, DecidableEq

def EngineView.of (e : Engine) : EngineView := ⟨e.evolving, e.active⟩

structure Supervised where
  during : EngineView
  after : EngineView
  generations : Int64

/-- Lets one worker evolve the pool for `limit` requests. -/
def supervised (limit : Nat) : Act Supervised := do
  let (engine, _) := Engine.start (fun _ => none) 1 {}
  note (.evolutionStarted 1)
  note (.workerStarted 0)
  modify ({ · with generations := {}, service := .turns limit 0 })
  let (death, w) := contained (generations limit) (← get)
  set w
  let engine ← match death with
    | some fault => do
      note (.workerDied 0 fault)
      pure (engine.drive (.exited engine.held 0 (some fault))).1
    | none => do
      note (.workerStopped 0)
      pure engine
  let generations := w.generations.current
  let stopped := engine.stop
  note (.evolutionStopped generations)
  modify ({ · with service := .chance, drill := none })
  return ⟨.of engine, .of stopped, generations⟩

end Biotope.Evolution
