import Biotope.Proofs.Draws
import Biotope.Proofs.Weights

/-!
# Sampling opcodes

The running sums of weights rise, and a draw stays below their total although its product with
the scale is rounded. So a draw takes an opcode whose weight is above zero.
-/

namespace Biotope

open Decimal (isFinite)

def weight (ws : List Float) (o : Opcode) : Float := ws.getD o.index 0.0

namespace Weights

/-! ## Running sums -/

structure Addable (acc : Float) (ws : List Float) : Prop where
  total : isFinite (ws.foldl (· + ·) acc) = true
  nonneg : 0 ≤ rational acc
  weights : ∀ w ∈ ws, 0.0 ≤ w

namespace Addable

variable {acc w : Float} {ws : List Float}

theorem finite (h : isFinite (ws.foldl (· + ·) acc) = true) : isFinite acc = true := by
  induction ws generalizing acc with
  | nil => exact h
  | cons w ws ih => exact (isFinite_of_add (ih h)).1

section
variable (h : Addable acc (w :: ws))
include h

theorem head : isFinite acc = true ∧ isFinite w = true ∧ isFinite (acc + w) = true ∧
    0 ≤ rational w := by
  have hsum : isFinite (acc + w) = true := finite h.total
  obtain ⟨hacc, hw⟩ := isFinite_of_add hsum
  have hnonneg := (le_iff_rational finite_zero hw).mp (h.weights w List.mem_cons_self)
  exact ⟨hacc, hw, hsum, rational_zero ▸ hnonneg⟩

theorem le_add : rational acc ≤ rational (acc + w) := by
  obtain ⟨hacc, hw, hsum, hw0⟩ := h.head
  exact (add_rounds hacc hw h.nonneg hw0).ge hacc h.nonneg hsum (le_add_of_nonneg_right hw0)

theorem tail : Addable (acc + w) ws :=
  ⟨h.total, h.nonneg.trans h.le_add, fun v hv => h.weights v (List.mem_cons_of_mem _ hv)⟩

/-- A sum that rises has had a weight added to it. -/
theorem pos_of_lt (hlt : rational acc < rational (acc + w)) : 0.0 < w := by
  obtain ⟨hacc, hw, hsum, hw0⟩ := h.head
  refine (lt_iff_rational finite_zero hw).mpr (lt_of_le_of_ne hw0 fun hzero => ?_)
  have hnear := (add_rounds hacc hw h.nonneg hw0).near hacc h.nonneg hsum
  rw [← hzero, rational_zero, add_zero, sub_self, abs_zero] at hnear
  have := abs_nonpos_iff.mp hnear
  linarith

end

theorem total_nonneg (h : Addable acc ws) : 0 ≤ rational (ws.foldl (· + ·) acc) := by
  induction ws generalizing acc with
  | nil => exact h.nonneg
  | cons w ws ih => exact ih h.tail

theorem total_pos (h : Addable acc ws) (hzero : ¬ (ws.foldl (· + ·) acc == 0.0) = true) :
    0 < rational (ws.foldl (· + ·) acc) := by
  refine lt_of_le_of_ne h.total_nonneg fun hne => hzero ?_
  rw [beq_iff_rational h.total finite_zero, ← hne, rational_zero]

end Addable

theorem addable_of_weights {w : Float} {ws : List Float}
    (htotal : isFinite (ws.foldl (· + ·) w) = true) (hweights : ∀ v ∈ w :: ws, 0.0 ≤ v) :
    Addable w ws := by
  have hw := (le_iff_rational finite_zero (Addable.finite htotal)).mp
    (hweights w List.mem_cons_self)
  exact ⟨htotal, rational_zero ▸ hw, fun v hv => hweights v (List.mem_cons_of_mem _ hv)⟩

def passed (x acc : Float) (ws : List Float) : Nat :=
  (runningSums acc ws).dropLast.countP fun c => decide (c ≤ x)

theorem passed_cons (x acc w : Float) (ws : List Float) :
    passed x acc (w :: ws) = passed x (acc + w) ws + if acc ≤ x then 1 else 0 := by
  have hne : runningSums (acc + w) ws ≠ [] := by cases ws <;> simp [runningSums]
  simp only [passed, runningSums, List.dropLast_cons_of_ne_nil hne, List.countP_cons,
    decide_eq_true_eq]

section
variable {x acc : Float} {ws : List Float} (hx : isFinite x = true) (h : Addable acc ws)
include hx h

theorem passed_of_lt (hlt : rational x < rational acc) : passed x acc ws = 0 := by
  induction ws generalizing acc with
  | nil => rfl
  | cons w ws ih =>
    have habove : ¬ acc ≤ x := by
      rw [le_iff_rational h.head.1 hx]
      exact not_le.mpr hlt
    rw [passed_cons, if_neg habove, ih h.tail (hlt.trans_le h.le_add)]

/-- The last of the sums that do not exceed `x` is followed by a weight above zero. -/
theorem passed_of_le (hle : rational acc ≤ rational x)
    (hlt : rational x < rational (ws.foldl (· + ·) acc)) :
    ∃ i, passed x acc ws = i + 1 ∧ 0.0 < ws.getD i 0.0 := by
  induction ws generalizing acc with
  | nil => exact absurd hlt (not_lt.mpr hle)
  | cons w ws ih =>
    rw [passed_cons, if_pos ((le_iff_rational h.head.1 hx).mpr hle)]
    rcases le_or_gt (rational (acc + w)) (rational x) with hnext | hnext
    · obtain ⟨i, hi, hpos⟩ := ih h.tail hnext hlt
      exact ⟨i + 1, by rw [hi], hpos⟩
    · exact ⟨0, by rw [passed_of_lt hx h.tail hnext], h.pos_of_lt (hle.trans_lt hnext)⟩

end

/-! ## The scale -/

theorem rational_greatestDraw : rational greatestDraw = (2 ^ 52 - 1) / 2 ^ 52 := by
  show ((2 ^ 53 - 2 : Nat) : ℚ) * 2 ^ (-53 : Int) = _
  norm_num [zpow_neg]

theorem finite_greatestDraw : isFinite greatestDraw = true := by decide +kernel

theorem greatestDraw_unit : 0 ≤ rational greatestDraw ∧ rational greatestDraw ≤ 1 := by
  rw [rational_greatestDraw]
  norm_num

theorem previous_spec {x : Float} (hx : isFinite x = true) (hpos : 0 < rational x) :
    isFinite (previous x) = true ∧ 0 ≤ rational (previous x) ∧
      rational (previous x) < rational x := by
  obtain ⟨hbits, hlt⟩ := bits_of_pos hx hpos
  have hnat : (x.toBits - 1).toNat = x.toBits.toNat - 1 :=
    UInt64.toNat_sub_of_le _ _ (by exact hbits)
  have hprevious : (previous x).toBits = x.toBits - 1 := toBits_ofBits (by omega)
  have hbelow : (previous x).toBits.toNat < Decimal.infinityBits := by
    rw [hprevious]
    omega
  obtain ⟨hfinite, hvalue⟩ := rational_of_bits hbelow
  rw [hprevious, hnat] at hvalue
  refine ⟨hfinite, ?_, ?_⟩
  · rw [hvalue]
    unfold Decimal.Dyadic.value
    positivity
  · have hcode {b : Nat} (hb : b < Decimal.infinityBits) : (Decimal.Dyadic.ofBits b).code = b :=
      Decimal.Dyadic.code_ofBits (hb.trans (by decide))
    rw [hvalue, (rational_of_bits hlt).2]
    apply (Decimal.Dyadic.canonical_ofBits _).value_lt_of_code_lt
      (Decimal.Dyadic.canonical_ofBits _)
    rw [hcode (by omega), hcode hlt]
    omega

structure Scaled (total scale : Float) : Prop where
  finite : isFinite scale = true
  nonneg : 0 ≤ rational scale
  below : isFinite (scale * greatestDraw) = true ∧
    rational (scale * greatestDraw) < rational total

theorem greatest_le {s : Float} (hs : isFinite s = true) (h0 : 0 ≤ rational s) :
    isFinite (s * greatestDraw) = true ∧ rational (s * greatestDraw) ≤ rational s := by
  obtain ⟨hg0, hg1⟩ := greatestDraw_unit
  exact (mul_rounds hs finite_greatestDraw h0 hg0).le hs h0 (mul_le_of_le_one_right h0 hg1)

/-- The second step down is never taken: the float before the total is below it, and so are its
products. -/
theorem lowered_spec {t : Float} (ht : isFinite t = true) (hpos : 0 < rational t) :
    Scaled t (lowered t 2 t) := by
  obtain ⟨hprevious, hnonneg, hlt⟩ := previous_spec ht hpos
  obtain ⟨hfinite, -⟩ := greatest_le ht hpos.le
  obtain ⟨hfinite', hle'⟩ := greatest_le hprevious hnonneg
  rw [lowered]
  split
  · have hbelow : ¬ t ≤ previous t * greatestDraw := by
      rw [le_iff_rational ht hfinite']
      exact not_le.mpr (hle'.trans_lt hlt)
    rw [lowered, if_neg hbelow]
    exact ⟨hprevious, hnonneg, hfinite', hle'.trans_lt hlt⟩
  · rename_i hbelow
    rw [le_iff_rational ht hfinite, not_le] at hbelow
    exact ⟨ht, hpos.le, hfinite, hbelow⟩

/-- The multiple of `2 ^ -52` that a word gives. -/
theorem multiple_spec (v : UInt64) :
    let u := (v >>> 12).toFloat * Float.ofBits 0x3CB0000000000000
    isFinite u = true ∧ 0 ≤ rational u ∧ rational u ≤ rational greatestDraw := by
  have hshort : (v >>> 12).toNat < 2 ^ 52 := by
    rw [UInt64.toNat_shiftRight, Nat.shiftRight_eq_div_pow]
    exact Nat.div_lt_of_lt_mul v.toNat_lt
  have hvalue : rational (Float.ofBits 0x3CB0000000000000) = 1 / 2 ^ 52 := by
    show ((2 ^ 52 : Nat) : ℚ) * 2 ^ (-104 : Int) = _
    norm_num [zpow_neg]
  exact fraction_le (by norm_num) hshort (by decide +kernel) hvalue finite_greatestDraw
    rational_greatestDraw

theorem drawn_spec {W : Weights} {t : Float} (h : Scaled t W.scale) (v : UInt64) :
    isFinite (W.drawn v) = true ∧ 0 ≤ rational (W.drawn v) ∧
      rational (W.drawn v) < rational t := by
  obtain ⟨hu, hu0, hug⟩ := multiple_spec v
  unfold drawn
  generalize (v >>> 12).toFloat * Float.ofBits 0x3CB0000000000000 = u at hu hu0 hug ⊢
  obtain ⟨hproduct, hbelow⟩ := h.below
  obtain ⟨hg0, hg1⟩ := greatestDraw_unit
  have hrounds := mul_rounds hu h.finite hu0 h.nonneg
  have hgreatest := mul_rounds h.finite finite_greatestDraw h.nonneg hg0
  obtain ⟨hx, -⟩ := hrounds.le h.finite h.nonneg
    (mul_le_of_le_one_left h.nonneg (hug.trans hg1))
  have hle : rational u * rational W.scale ≤ rational W.scale * rational greatestDraw := by
    rw [mul_comm]
    exact mul_le_mul_of_nonneg_left hug h.nonneg
  refine ⟨hx, hrounds.nonneg hx, ?_⟩
  rcases le_or_gt (rational u * rational W.scale) (rational (W.scale * greatestDraw)) with hf | hf
  · exact (hrounds.le hproduct (hgreatest.nonneg hproduct) hf).2.trans_lt hbelow
  · rcases hle.lt_or_eq with hlt | heq
    · exact (hrounds.mono hgreatest hx hproduct hlt).trans_lt hbelow
    -- only the greatest draw itself has its product
    · have hproduct0 : 0 < rational u * rational W.scale :=
        lt_of_le_of_lt (hgreatest.nonneg hproduct) hf
      have hscale0 : 0 < rational W.scale := pos_of_mul_pos_right hproduct0 hu0
      rw [mul_comm] at heq
      have hsame : u = greatestDraw := eq_of_rational_eq hu finite_greatestDraw
        (mul_left_cancel₀ hscale0.ne' heq) (pos_of_mul_pos_left hproduct0 h.nonneg)
      rw [hsame, float_mul_comm]
      exact hbelow

/-! ## Samples -/

theorem of_ofList_ok {ws : List Float} {W : Weights} (h : ofList ws = .ok (.ok W)) :
    ∃ w rest, ws = w :: rest ∧ ws.length = 8 ∧ Addable w rest ∧
      0 < rational (rest.foldl (· + ·) w) ∧
      W = ⟨(runningSums w rest).dropLast,
        lowered (rest.foldl (· + ·) w) 2 (rest.foldl (· + ·) w)⟩ := by
  unfold ofList at h
  split at h
  · cases h
  · rename_i hcount
    split at h
    · cases h
    · rename_i hvalue
      have hweights : ∀ v ∈ ws, 0.0 ≤ v := by
        simpa using hvalue
      split at h
      · cases h
      · rename_i w rest
        simp only [getLastD_runningSums] at h
        split at h
        · cases h
        · rename_i hzero
          split at h
          · cases h
          · rename_i hfinite
            cases h
            have hadd := addable_of_weights (by simpa using hfinite) hweights
            exact ⟨w, rest, rfl, not_not.mp hcount, hadd, hadd.total_pos hzero, rfl⟩

section
variable {ws : List Float} {W : Weights} (h : ofList ws = .ok (.ok W))
include h

/-- A scaled draw falls on a weight above zero. -/
theorem position_spec (v : UInt64) : 0.0 < ws.getD (W.position (W.drawn v)) 0.0 := by
  obtain ⟨w, rest, rfl, -, hadd, hpos, rfl⟩ := of_ofList_ok h
  obtain ⟨hx, hx0, hlt⟩ := drawn_spec (lowered_spec hadd.total hpos) v
    (W := ⟨(runningSums w rest).dropLast, lowered _ 2 (rest.foldl (· + ·) w)⟩)
  generalize drawn _ v = x at hx hx0 hlt
  show 0.0 < (w :: rest).getD (passed x w rest) 0.0
  rcases le_or_gt (rational w) (rational x) with hle | hgt
  · obtain ⟨i, hi, hweight⟩ := passed_of_le hx hadd hle hlt
    rw [hi]
    exact hweight
  · rw [passed_of_lt hx hadd hgt]
    exact (lt_iff_rational finite_zero (Addable.finite hadd.total)).mpr (hx0.trans_lt hgt)

theorem sample_weight (σ : Stream) : 0.0 < weight ws (W.sample σ).1 := by
  obtain ⟨w, rest, hws, hlength, -⟩ := of_ofList_ok h
  have hweight := position_spec h (Stream.next σ).1
  obtain ⟨i, hi⟩ : ∃ i, W.position (W.drawn (Stream.next σ).1) = i := ⟨_, rfl⟩
  rw [hi] at hweight
  have hlt : i < 8 := by
    by_contra hge
    rw [List.getD_eq_default _ _ (hlength ▸ not_lt.mp hge)] at hweight
    exact absurd hweight (by decide +kernel)
  have hopcode : ((W.sample σ).1.index : Nat) = i := by
    have hindex (j : Fin 8) : (Opcode.ofIndex j).index = j := by fin_cases j <;> rfl
    show ((Opcode.ofIndex ⟨W.position (W.drawn (Stream.next σ).1) % 8, _⟩).index : Nat) = i
    rw [hindex, ← Nat.mod_eq_of_lt hlt, ← hi]
  rw [weight, hopcode]
  exact hweight

end

end Weights

end Biotope
