import Biotope.Proofs.Growth
import Biotope.Proofs.Soundness
import Biotope.Pool.Seeding

/-!
# Seeded pools

Seeding starts from an empty pool, which is sound, and files one grown creature after
another, so it ends in a sound pool. It breaks off only past the end of a gauge.
-/

namespace Biotope.Pool

open Act

def Overfull (p : Pool) : Prop := 2 ^ 63 ≤ p.held.card

def Overflowed (f : Fault) (p : Pool) : Prop := f = .sumOverflow ∧ (p.Tallied ∨ p.Overfull)

theorem Tallied.with_genes {p : Pool} (h : p.Tallied) (γ : Gauge) : { p with genes := γ }.Tallied :=
  ⟨h.filed, h.species, h.creatures, h.species_ordered, h.creatures_ordered⟩

theorem keeps_grown (g : Grower) (source : TemplateSource) :
    Keeps Sound Overflowed (grown g source) := by
  have hm := g.yields_creature source
  constructor
  · intro w v x hw h
    simp only [grown] at h
    split at h
    · rename_i hp
      cases h
      exact sound_iff.mpr ⟨hw.tallied.with_genes _, hm.ordered hp hw.genes_ordered⟩
    · cases h
  · intro w v f hw h
    simp only [grown] at h
    split at h
    · cases h
    · rename_i hp
      cases h
      exact ⟨hm.of_error hp, .inl (hw.tallied.with_genes _)⟩

theorem keeps_insert (g : Gene) : Keeps Sound Overflowed (insert g) := by
  constructor
  · intro w v u hw h
    obtain ⟨hg, -, -⟩ := of_insert_ok hw.filed h
    exact hg.sound hw
  · intro w v f hw h
    obtain ⟨hf, -, hc, -⟩ := of_insert_error hw.tallied h
    exact ⟨hf, .inr hc.ge⟩

theorem keeps_grownAll (g : Grower) (n : Nat) : Keeps Sound Overflowed (grownAll g n) := by
  induction n with
  | zero => exact (idle_pure _).keeps
  | succ n ih =>
    apply keeps_bind (keeps_grown g _)
    intro c
    exact keeps_bind ih fun _ => (idle_pure _).keeps

theorem keeps_insertAll (gs : List Gene) : Keeps Sound Overflowed (insertAll gs) := by
  induction gs with
  | nil => exact (idle_pure _).keeps
  | cons g gs ih => exact keeps_bind (keeps_insert g) fun _ => ih

theorem keeps_settle (g : Grower) (n : Nat) : Keeps Sound Overflowed (settle g n) := by
  induction n with
  | zero => exact (idle_pure _).keeps
  | succ n ih =>
    apply keeps_bind calm_getPool.keeps
    intro p
    apply keeps_bind (keeps_grown g _)
    intro c
    exact keeps_bind (keeps_insert _) fun _ => ih

theorem Tallied.resetMarks {p : Pool} (h : p.Tallied) : p.resetMarks.Tallied :=
  ⟨h.filed, h.species, h.creatures, Gauge.ordered_resetMarks _, Gauge.ordered_resetMarks _⟩

theorem Sound.resetMarks {p : Pool} (h : p.Sound) : p.resetMarks.Sound :=
  sound_iff.mpr ⟨h.tallied.resetMarks, Gauge.ordered_resetMarks _⟩

theorem keeps_close : Keeps Sound Overflowed close :=
  keeps_bind (keeps_modifyPool fun _ => Sound.resetMarks) fun _ =>
    keeps_bind calm_getPool.keeps fun _ => (idle_note _).keeps

theorem keeps_sow (n : Nat) (g : Grower) : Keeps Sound Overflowed (sow n g) := by
  unfold sow
  cases g.policy with
  | template =>
    exact keeps_bind (keeps_grownAll g n) fun _ => keeps_bind (keeps_insertAll _) fun _ => keeps_close
  | existingSpecies => exact keeps_bind (keeps_settle g n) fun _ => keeps_close

theorem seed_eq (n : Nat) (t : Probability) (g : Grower) (w : World) : seed n t g w =
    entering (fun u => sow n g { u with pool := { temperature := t } }) w := rfl

theorem of_seed_ok {n : Nat} {t : Probability} {g : Grower} {w v : World} {u : Unit}
    (h : seed n t g w = .ok u v) : v.pool.Sound := by
  rw [seed_eq] at h
  exact (keeps_sow n g).of_ok (w := { notified w with pool := { temperature := t } })
    (sound_empty t) (of_entering_ok h)

theorem of_seed_error {n : Nat} {t : Probability} {g : Grower} {w v : World} {f : Fault}
    (h : seed n t g w = .error f v) :
    f = .sumOverflow ∧ (v.pool.Tallied ∨ v.pool.Overfull) := by
  rw [seed_eq] at h
  obtain ⟨u, hu, rfl⟩ := of_entering_error h
  exact (keeps_sow n g).of_error (w := { notified w with pool := { temperature := t } }) (v := u)
    (sound_empty t) hu

end Biotope.Pool
