import Biotope.Evolution.Engine
import Biotope.Evolution.Generation

/-!
# Shifts

Workers share the pool, and each generation is done before another begins. So a shift, in
which the workers of an engine have their turns one after another, is a possible course of
events.
-/

namespace Biotope.Evolution

/-- The turn of one worker. A fault costs its life. -/
def turn (n index : Nat) (s : Engine × World) : Engine × World :=
  let (engine, w) := s
  if engine.workers[index]? = some true then
    match contained (generations n) w with
    | (none, w) => (engine, w)
    | (some fault, w) =>
      let w := { w with journal := w.journal.push (.workerDied index fault) }
      ((engine.drive (.exited engine.held index (some fault))).1, w)
  else s

/-- Lets every living worker run up to `n` generations. -/
def shift (n : Nat) (engine : Engine) (w : World) : Engine × World :=
  let (engine, w) := (List.range engine.workers.length).foldl (fun s i => turn n i s) (engine, w)
  ({ engine with generations := w.generations.current }, w)

end Biotope.Evolution
