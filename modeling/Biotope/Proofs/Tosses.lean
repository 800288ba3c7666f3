import Biotope.Proofs.Draws
import Biotope.Proofs.Temperatures

/-!
# Tosses

A toss compares a draw from the half-open unit interval with a chance. Where the chance and the
temperature are both certain, so is the toss. Where one of them is never, the toss fails, also on
a draw of zero.
-/

namespace Biotope

open Pool (finite_value rational_inUnit)

namespace Probability

theorem value_and_always : (always.and always).value = 1.0 := by decide +kernel

theorem toss_certain {p : Probability} (h : p.value = 1.0) (s : Stream) :
    (p.toss s).1 = true := by
  show decide ((Stream.unit s).1 < p.value) = true
  rw [h]
  exact decide_eq_true (Stream.unit_lt_one s)

theorem rational_nonneg (p : Probability) : 0 ≤ rational p.value :=
  ((rational_inUnit (finite_value p)).mp p.inUnit).1

theorem beq_never_iff {p : Probability} : (p == never) = true ↔ rational p.value = 0 :=
  rational_zero ▸ beq_iff_rational (finite_value p) finite_zero

/-- No product with zero is rounded away from zero. -/
theorem and_never {p q : Probability} (h : (p == never) = true ∨ (q == never) = true) :
    (p.and q == never) = true := by
  rw [beq_never_iff, beq_never_iff] at h
  have hrounds := mul_rounds (finite_value p) (finite_value q) p.rational_nonneg q.rational_nonneg
  have hexact : rational p.value * rational q.value ≤ rational 0.0 :=
    rational_zero ▸ (mul_eq_zero.mpr h).le
  obtain ⟨hfinite, hle⟩ := hrounds.le finite_zero rational_zero.ge hexact
  rw [rational_zero] at hle
  have hzero : rational (p.value * q.value) = 0 := le_antisymm hle (hrounds.nonneg hfinite)
  have hinUnit : 0.0 ≤ p.value * q.value ∧ p.value * q.value ≤ 1.0 := by
    rw [rational_inUnit hfinite, hzero]
    exact ⟨le_rfl, zero_le_one⟩
  rw [beq_never_iff, Probability.and, value_clamp hinUnit, hzero]

theorem toss_never {p : Probability} (h : (p == never) = true) (s : Stream) :
    (p.toss s).1 = false := by
  obtain ⟨hfinite, hnonneg, -⟩ := s.unit_spec
  show decide ((Stream.unit s).1 < p.value) = false
  rw [decide_eq_false_iff_not, lt_iff_rational hfinite (finite_value p), beq_never_iff.mp h]
  exact not_lt.mpr hnonneg

end Probability

namespace Pool

open Act

theorem flip_eq (p : Probability) (w : World) :
    flip p w = .ok ((p.and w.pool.temperature).toss w.stream).1
      { notified w with stream := ((p.and w.pool.temperature).toss w.stream).2 } := by
  rw [← notified_pool w, ← notified_stream w]
  rfl

theorem flip_certain {w : World} (h : w.pool.temperature = .always) :
    ∃ v, flip .always w = .ok true v ∧ Undisturbed w v := by
  obtain ⟨yes, v, hv, hundisturbed, -⟩ := calm_flip .always w
  rw [flip_eq, h, Probability.toss_certain Probability.value_and_always] at hv
  cases hv
  refine ⟨_, ?_, hundisturbed⟩
  rw [flip_eq, h, Probability.toss_certain Probability.value_and_always]

theorem flip_never {p : Probability} {w : World}
    (h : (p == .never) = true ∨ (w.pool.temperature == .never) = true) :
    ∃ v, flip p w = .ok false v ∧ Undisturbed w v := by
  obtain ⟨yes, v, hv, hundisturbed, -⟩ := calm_flip p w
  refine ⟨v, ?_, hundisturbed⟩
  rw [flip_eq, Probability.toss_never (Probability.and_never h)] at hv
  cases hv
  rw [flip_eq, Probability.toss_never (Probability.and_never h)]

end Pool

end Biotope
