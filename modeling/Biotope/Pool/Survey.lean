import Biotope.Pool.Census
import Biotope.Pool.Exchange

/-!
# Surveys

Readings of a pool that change nothing. Each enters the pool once, so what it tells
is true of one moment; a `roster` is put together from several.
-/

namespace Biotope.Pool

open Act

def speciesSize (id : SpeciesId) : Act Nat := entering do return (← getPool).sizeOf id

def takeCensus : Act Census := entering do return (← getPool).census

def sizes : List SpeciesId → Act (List (SpeciesId × Nat))
  | [] => return []
  | id :: ids => do
    let n ← speciesSize id
    return (id, n) :: (← sizes ids)

def roster : Act (List (SpeciesId × Nat)) := do sizes (← liveSpecies)

end Biotope.Pool
