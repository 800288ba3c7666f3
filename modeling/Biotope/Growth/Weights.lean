import Biotope.Gauge
import Biotope.Gene.Basic

/-!
# Opcode weights

Weights say how often each opcode is drawn. A draw scales a uniform number to the
total of the weights and takes the first opcode whose running sum is above it.
-/

namespace Biotope

inductive WeightsError where
  | count (given : Nat)
  | invalid
  | allZero
deriving DecidableEq, Repr

def WeightsError.message : WeightsError → String
  | count given => "Expected 8 opcode weights, got " ++ toString given
  | invalid => "Invalid opcode weights: A weight is invalid in distribution"
  | allZero => "Invalid opcode weights: All weights are zero in distribution"

structure Weights where
  /-- The sums of the first weight, of the first two, and so on up to seven. -/
  sums : List Float
  /-- The number that a draw from `[0, 1)` is multiplied by. -/
  scale : Float

namespace Weights

/-- The sums of all nonempty beginnings, added from the left on top of `acc`. -/
def runningSums (acc : Float) : List Float → List Float
  | [] => [acc]
  | w :: ws => acc :: runningSums (acc + w) ws

def greatestDraw : Float := Float.ofBits 0x3FEFFFFFFFFFFFFE

def previous (x : Float) : Float := Float.ofBits (x.toBits - 1)

/-- Steps the scale down until the greatest draw stays below the total. Rounding reaches
the total only from a subnormal scale, and from the next smaller one no more. -/
def lowered (total : Float) : Nat → Float → Float
  | 0, scale => scale
  | fuel + 1, scale =>
    if total ≤ scale * greatestDraw then lowered total fuel (previous scale) else scale

/-- Weights from eight numbers in the order of the opcodes. An infinite total is a
fault. -/
def ofList (ws : List Float) : Except Fault (Except WeightsError Weights) :=
  if ws.length ≠ 8 then .ok (.error (.count ws.length))
  else if ws.any fun w => !decide (0.0 ≤ w) then .ok (.error .invalid)
  else
    match ws with
    | [] => .ok (.error (.count 0))
    | w :: rest =>
      let sums := runningSums w rest
      let total := sums.getLastD w
      if total == 0.0 then .ok (.error .allZero)
      else if !Decimal.isFinite total then .error .weightTotal
      else .ok (.ok ⟨sums.dropLast, lowered total 2 total⟩)

/-- The number of running sums that do not exceed `x`. -/
def position (ws : Weights) (x : Float) : Nat := ws.sums.countP fun c => decide (c ≤ x)

/-- A draw from `[0, 1)` on the multiples of `2 ^ -52`, scaled to the weights. -/
def drawn (ws : Weights) (v : UInt64) : Float :=
  (v >>> 12).toFloat * Float.ofBits 0x3CB0000000000000 * ws.scale

def sample (ws : Weights) : Draw Opcode := do
  let v ← Stream.next
  return .ofIndex ⟨ws.position (ws.drawn v) % 8, Nat.mod_lt _ (Nat.succ_pos 7)⟩

end Weights

end Biotope
