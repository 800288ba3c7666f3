import Mathlib
import Biotope.Gauge

/-!
# Gauges as integers

Inside the range of 64 bits a gauge counts like an integer, and every step keeps the
count between its marks. Only a step past the end of the range breaks off.
-/

namespace Biotope.Gauge

structure Ordered (g : Gauge) : Prop where
  low_le : g.low.toInt ≤ g.current.toInt
  le_high : g.current.toInt ≤ g.high.toInt

instance (g : Gauge) : Decidable g.Ordered :=
  decidable_of_iff (g.low.toInt ≤ g.current.toInt ∧ g.current.toInt ≤ g.high.toInt)
    ⟨fun ⟨hlow, hhigh⟩ => ⟨hlow, hhigh⟩, fun h => ⟨h.low_le, h.le_high⟩⟩

theorem maxValue_toInt : Int64.maxValue.toInt = 2 ^ 63 - 1 := by decide

theorem minValue_toInt : Int64.minValue.toInt = -2 ^ 63 := by decide

theorem toInt_add_of_fits {a b : Int64} (h : fits (a.toInt + b.toInt) = true) :
    (a + b).toInt = a.toInt + b.toInt := by
  simp only [fits, Bool.and_eq_true, decide_eq_true_eq, maxValue_toInt, minValue_toInt] at h
  rw [Int64.toInt_add]
  exact Int.bmod_eq_of_le (by omega) (by omega)

theorem toInt_sub_one {a : Int64} (h : -2 ^ 63 < a.toInt) : (a - 1).toInt = a.toInt - 1 := by
  have := a.toInt_lt
  rw [Int64.toInt_sub]
  exact Int.bmod_eq_of_le (by simp; omega) (by simp; omega)

theorem toInt_max (a b : Int64) : (max a b).toInt = max a.toInt b.toInt := by
  show (if a ≤ b then b else a).toInt = _
  split
  · rename_i h; rw [Int64.le_iff_toInt_le] at h; omega
  · rename_i h; rw [Int64.le_iff_toInt_le] at h; omega

theorem toInt_min (a b : Int64) : (min a b).toInt = min a.toInt b.toInt := by
  show (if a ≤ b then a else b).toInt = _
  split
  · rename_i h; rw [Int64.le_iff_toInt_le] at h; omega
  · rename_i h; rw [Int64.le_iff_toInt_le] at h; omega

/-! ## Steps -/

theorem increment_ok {g : Gauge} (h : g.current.toInt < 2 ^ 63 - 1) :
    ∃ v g', increment g = .ok v g' ∧ g'.current.toInt = g.current.toInt + 1 ∧
      (g.Ordered → g'.Ordered) := by
  have hne : g.current ≠ Int64.maxValue := by
    intro e
    rw [e, maxValue_toInt] at h
    omega
  have hv : (g.current + 1).toInt = g.current.toInt + 1 := by
    apply toInt_add_of_fits
    have := g.current.le_toInt
    simp only [fits, maxValue_toInt, minValue_toInt, Int64.toInt_one, Bool.and_eq_true,
      decide_eq_true_eq]
    omega
  refine ⟨g.current + 1, { g with current := g.current + 1, high := max g.high (g.current + 1) },
    ?_, hv, fun ho => ⟨?_, ?_⟩⟩
  · simp only [increment, if_neg hne]
  · have := ho.low_le
    show g.low.toInt ≤ (g.current + 1).toInt
    omega
  · show (g.current + 1).toInt ≤ (max g.high (g.current + 1)).toInt
    rw [toInt_max]
    exact le_max_right _ _

theorem increment_max {g : Gauge} (h : g.current = Int64.maxValue) :
    increment g = .error .sumOverflow { g with current := g.current + 1 } := by
  simp only [increment, if_pos h]

theorem lt_of_ne_max {g : Gauge} (h : g.current ≠ Int64.maxValue) :
    g.current.toInt < 2 ^ 63 - 1 := by
  have hle := g.current.toInt_le
  rw [maxValue_toInt] at hle
  refine lt_of_le_of_ne hle fun e => h ?_
  rw [← maxValue_toInt] at e
  exact Int64.toInt_inj.mp e

theorem lt_of_ne_min {g : Gauge} (h : g.current ≠ Int64.minValue) : -2 ^ 63 < g.current.toInt := by
  have hle := g.current.minValue_le_toInt
  rw [minValue_toInt] at hle
  refine lt_of_le_of_ne hle fun e => h ?_
  rw [← minValue_toInt] at e
  exact (Int64.toInt_inj.mp e).symm

theorem increment_of_ok {g g' : Gauge} {v : Int64} (h : increment g = .ok v g') :
    g'.current.toInt = g.current.toInt + 1 ∧ (g.Ordered → g'.Ordered) := by
  by_cases hm : g.current = Int64.maxValue
  · rw [increment_max hm] at h; cases h
  · obtain ⟨v', g'', he, hc, ho⟩ := increment_ok (lt_of_ne_max hm)
    rw [he] at h; cases h
    exact ⟨hc, ho⟩

theorem increment_of_error {g g' : Gauge} {f : Fault} (h : increment g = .error f g') :
    f = .sumOverflow ∧ g.current = Int64.maxValue := by
  simp only [increment] at h
  split at h
  · rename_i hm; cases h; exact ⟨rfl, hm⟩
  · cases h

theorem decrement_ok {g : Gauge} (h : -2 ^ 63 < g.current.toInt) :
    ∃ v g', decrement g = .ok v g' ∧ g'.current.toInt = g.current.toInt - 1 ∧
      (g.Ordered → g'.Ordered) := by
  have hne : g.current ≠ Int64.minValue := by
    intro e
    rw [e, minValue_toInt] at h
    omega
  have hv := toInt_sub_one h
  refine ⟨g.current - 1, { g with current := g.current - 1, low := min g.low (g.current - 1) },
    ?_, hv, fun ho => ⟨?_, ?_⟩⟩
  · simp only [decrement, if_neg hne]
  · show (min g.low (g.current - 1)).toInt ≤ (g.current - 1).toInt
    rw [toInt_min]
    exact min_le_right _ _
  · have := ho.le_high
    show (g.current - 1).toInt ≤ g.high.toInt
    omega

theorem decrement_of_ok {g g' : Gauge} {v : Int64} (h : decrement g = .ok v g') :
    g'.current.toInt = g.current.toInt - 1 ∧ (g.Ordered → g'.Ordered) := by
  by_cases hm : g.current = Int64.minValue
  · simp only [decrement, if_pos hm] at h; cases h
  · obtain ⟨v', g'', he, hc, ho⟩ := decrement_ok (lt_of_ne_min hm)
    rw [he] at h; cases h
    exact ⟨hc, ho⟩

theorem decrement_min {g : Gauge} (h : g.current = Int64.minValue) :
    decrement g = .error .differenceOverflow { g with current := g.current - 1 } := by
  simp only [decrement, if_pos h]

theorem decrement_of_error {g g' : Gauge} {f : Fault} (h : decrement g = .error f g') :
    f = .differenceOverflow ∧ g.current = Int64.minValue := by
  simp only [decrement] at h
  split at h
  · rename_i hm; cases h; exact ⟨rfl, hm⟩
  · cases h

theorem add_of_ok {g g' : Gauge} {a v : Int64} (h : add a g = .ok v g') :
    g.Ordered → g'.Ordered := by
  intro _
  simp only [add] at h
  split at h
  · cases h
    refine ⟨?_, ?_⟩
    · show (min g.low (g.current + a)).toInt ≤ (g.current + a).toInt
      rw [toInt_min]
      exact min_le_right _ _
    · show (g.current + a).toInt ≤ (max g.high (g.current + a)).toInt
      rw [toInt_max]
      exact le_max_right _ _
  · cases h

theorem add_current {g g' : Gauge} {a v : Int64} (h : add a g = .ok v g') :
    g'.current.toInt = g.current.toInt + a.toInt := by
  simp only [add] at h
  split at h
  · rename_i hfits
    cases h
    exact toInt_add_of_fits hfits
  · cases h

theorem add_of_error {g g' : Gauge} {a : Int64} {f : Fault} (h : add a g = .error f g') :
    f = .sumOverflow ∧ (0 ≤ a.toInt → 2 ^ 63 ≤ g.current.toInt + a.toInt) := by
  simp only [add] at h
  split at h
  · cases h
  · rename_i hfits
    cases h
    refine ⟨rfl, fun ha => ?_⟩
    have hlow := g.current.minValue_le_toInt
    simp only [fits, Bool.and_eq_true, decide_eq_true_eq] at hfits
    rw [maxValue_toInt] at hfits
    omega

@[simp]
theorem ordered_resetMarks (g : Gauge) : g.resetMarks.Ordered := ⟨le_refl _, le_refl _⟩

@[simp]
theorem ordered_zero : ({} : Gauge).Ordered := ⟨le_refl _, le_refl _⟩

end Biotope.Gauge
