import Biotope.Json.Decoder
import Biotope.Pool.Census
import Biotope.Settings.Basic
import Biotope.Settings.Source

/-!
# Failures

Why an operation of the library did not take place. Unlike a fault, a failure leaves
everything as it was.
-/

namespace Biotope

inductive Failure where
  | settings (error : SettingsError)
  | weights (error : WeightsError)
  | noWorkers
  | probability (value : Float)
  | noWorker (index : Nat) (reason : String)
  | census (error : CensusError)
  | json (error : Json.Error) (text : String)
  | unreadable (reason : String)
  | file (reason : String)
  | source (error : SourceError)
  | unwritable (value : Nat)

namespace Failure

def detail : Failure → String
  | settings e => e.message
  | weights e => e.message
  | noWorkers => "Number of threads must be at least 1"
  | probability x => Decimal.plain.write x
  | noWorker index reason => "Failed to spawn processor-" ++ toString index ++ ": " ++ reason
  | census e => e.message
  | json e text => e.placed text
  | unreadable reason | file reason => reason
  | source e => e.message
  | unwritable _ => "out-of-range value for u64 type"

def message (f : Failure) : String :=
  match f with
  | settings _ | weights _ | noWorkers => "Configuration error: " ++ f.detail
  | probability x => Json.outOfUnitText x
  | noWorker .. => "Worker error: " ++ f.detail
  | census _ => "Persistence error: " ++ f.detail
  | json .. | unreadable _ => "Serde error: " ++ f.detail
  | file _ => "IO error: " ++ f.detail
  | source _ => "Config error: " ++ f.detail
  | unwritable _ => "TOML error: " ++ f.detail

/-- The messages from the failure down to its last cause. Failures of another layer have
their own message as the cause. -/
def causes (f : Failure) : List String :=
  match f with
  | json .. | unreadable _ | file _ | source _ | unwritable _ => [f.message, f.detail]
  | _ => [f.message]

end Failure

end Biotope
