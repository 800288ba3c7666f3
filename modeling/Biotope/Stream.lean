/-!
# Random streams

Every chance in a simulation is settled by one stream of 64-bit words. A `Stream`
is the sequence of words together with the number of words drawn from it, so a run
is determined by its stream. `seeded` is the stream of the SplitMix64 generator,
which may be led by given words.
-/

namespace Biotope

/-- A sequence of words and the number already drawn. -/
structure Stream where
  word : Nat → UInt64
  drawn : Nat := 0

instance : Inhabited Stream := ⟨⟨fun _ => 0, 0⟩⟩

abbrev Draw := StateM Stream

namespace Stream

/-! ## The SplitMix64 generator -/

/-- The finalizer of the generator. -/
def mix (z : UInt64) : UInt64 :=
  let z := (z ^^^ (z >>> 30)) * 0xBF58476D1CE4E5B9
  let z := (z ^^^ (z >>> 27)) * 0x94D049BB133111EB
  z ^^^ (z >>> 31)

/-- The `i`-th word after the seed. The state advances by a constant, so no earlier
word is needed. -/
def splitMix (seed : UInt64) (i : Nat) : UInt64 :=
  mix (seed + (i + 1).toUInt64 * 0x9E3779B97F4A7C15)

/-- The words of `script`, then those of the generator. -/
def seeded (seed : UInt64) (script : Array UInt64 := #[]) : Stream where
  word i := if h : i < script.size then script[i] else splitMix seed (i - script.size)

/-! ## Draws -/

def next : Draw UInt64 := fun s => (s.word s.drawn, { s with drawn := s.drawn + 1 })

/-- A float in `[0, 1)`, uniform on the multiples of `2 ^ -53`. -/
def unit : Draw Float := do
  let v ← next
  return (v >>> 11).toFloat * Float.ofBits 0x3CA0000000000000

/-- The greatest lower half of a product for which a candidate counts. -/
def zone (width n : Nat) : Nat := n <<< (width - 1 - n.log2) - 1

theorem one_shiftLeft_pos (width : Nat) : 0 < 1 <<< width := by
  rw [Nat.one_shiftLeft]
  exact Nat.two_pow_pos width

theorem mul_shiftRight_lt {v n width : Nat} (hv : v < 1 <<< width) (hn : 0 < n) :
    (v * n) >>> width < n := by
  rw [Nat.one_shiftLeft] at hv
  rw [Nat.shiftRight_eq_div_pow, Nat.div_lt_iff_lt_mul (Nat.two_pow_pos _), Nat.mul_comm n]
  exact Nat.mul_lt_mul_of_pos_right hv hn

/-- The top `width` bits of a word. -/
def top (width : Nat) (v : UInt64) : Nat := (v.toNat >>> (64 - width)) % (1 <<< width)

/-- The upper half of the product of a candidate and `n`, which is below `n`. -/
def scaled (width n : Nat) (hn : 0 < n) (v : UInt64) : Fin n :=
  ⟨(top width v * n) >>> width,
    mul_shiftRight_lt (Nat.mod_lt _ (one_shiftLeft_pos width)) hn⟩

/-- Draws candidates until one counts; the last candidate allowed counts anyway. -/
def belowWithin (width n : Nat) (hn : 0 < n) : Nat → Draw (Fin n)
  | 0 => do
    let v ← next
    return scaled width n hn v
  | fuel + 1 => do
    let v ← next
    if top width v * n % (1 <<< width) ≤ zone width n then return scaled width n hn v
    else belowWithin width n hn fuel

/-- A number below `n`, uniform by rejection on words of the given width. The generator
runs through all words before it repeats and at least half of them count, so the bound
on the number of candidates is never reached. -/
def belowOf (width n : Nat) (hn : 0 < n) : Draw (Fin n) := belowWithin width n hn UInt64.size

/-- A number below `n` from whole words. -/
def below (n : Nat) (hn : 0 < n) : Draw (Fin n) := belowOf 64 n hn

/-- A number below `n` from half words. -/
def belowHalf (n : Nat) (hn : 0 < n) : Draw (Fin n) := belowOf 32 n hn

end Stream

end Biotope
