import Biotope.Proofs.Storage

/-!
# Accepted censuses

A pool is built from a census if its buckets are filed. The gauges are taken as they
stand, so they describe the pool exactly if they describe the buckets beside them. Those
of a stored pool do when the pool was sound.
-/

namespace Biotope

structure Census.Consistent (c : Census) : Prop where
  species : c.species.current.toInt = c.buckets.length
  creatures : c.creatures.current.toInt = (Pool.contents c.buckets).card
  genes_ordered : c.genes.Ordered
  species_ordered : c.species.Ordered
  creatures_ordered : c.creatures.Ordered

namespace Pool

theorem sound_iff_consistent {p : Pool} (h : Filed p.buckets) : p.Sound ↔ p.census.Consistent :=
  ⟨fun hp => ⟨hp.counts_species, hp.counts_creatures, hp.genes_ordered, hp.species_ordered,
      hp.creatures_ordered⟩,
    fun hc => sound_iff.mpr ⟨⟨h, hc.species, hc.creatures, hc.species_ordered,
      hc.creatures_ordered⟩, hc.genes_ordered⟩⟩

/-- A census in order is accepted exactly if its buckets are filed, and all of it is taken. -/
theorem toPool_ok_iff {c : Census} (hc : Ascending c.buckets) {p : Pool} :
    c.toPool = .ok p ↔ Filed c.buckets ∧ p.census = c := by
  rw [Census.toPool_eq_ok_iff, Census.error?_eq_none_iff, filed_iff, and_iff_right hc]

/-- A pool built from a census, or loaded from the archive around it, has its buckets, all
filed, and its gauges, whatever they say: it is sound exactly if they are consistent. What
is stored of a sound pool is loaded as a sound pool. -/
theorem accepted_sound_iff :
    (∀ (c : Census) (p : Pool), Ascending c.buckets → c.toPool = .ok p →
      p.census = c ∧ Filed p.buckets ∧ (∀ b ∈ p.buckets, b.1 ≠ .any) ∧
        (p.Sound ↔ c.Consistent)) ∧
    (∀ (text : String) (p : Pool), (load text).1 = .ok p → ∃ a, Archive.parse text = .ok a ∧
      p.census = a.census ∧ Filed p.buckets ∧ (∀ b ∈ p.buckets, b.1 ≠ .any) ∧
        (p.Sound ↔ a.census.Consistent)) ∧
    ∀ (p : Pool) (t : Timestamp), p.Sound → t.Valid →
      ∃ q, (load (p.store t)).1 = .ok q ∧ q.Sound := by
  have haccepted (c : Census) (p : Pool) (hc : Ascending c.buckets) (h : c.toPool = .ok p) :
      p.census = c ∧ Filed p.buckets ∧ (∀ b ∈ p.buckets, b.1 ≠ .any) ∧
        (p.Sound ↔ c.Consistent) := by
    obtain ⟨hf, rfl⟩ := (toPool_ok_iff hc).mp h
    have hf : Filed p.buckets := hf
    exact ⟨rfl, hf, fun _ hb => hf.ne_any hb, sound_iff_consistent hf⟩
  refine ⟨haccepted, fun text p h => ?_, fun p t hp ht => ?_⟩
  · obtain ⟨a, ha, hasc, hp⟩ := of_load_ok h
    exact ⟨a, ha, haccepted _ _ hasc hp⟩
  · exact ⟨p, load_store_filed hp.filed ht, hp⟩

/-- A pool with two members of a species and a creature of another one is accepted as a census, and
is stored and loaded. -/
theorem accepted_sound_pair :
    let pair : Species := ⟨#[.chop .never, .chop .always]⟩
    let p : Pool :=
      { buckets := [(Gene.put.species, ⟨#[.put]⟩), ((Gene.chop .never).species, pair)]
        genes := ⟨3, 0, 5⟩, species := .ofValue 2, creatures := ⟨3, 1, 4⟩ }
    p.Sound ∧ p.census.toPool = .ok p ∧ p.census.Consistent ∧
      ∃ q, (load (p.store ⟨1970, 1, 1, 0, 0, 0, 0⟩)).1 = .ok q ∧ q.Sound ∧
        q.census.Consistent := by
  intro pair p
  have hs : p.Sound := by decide +kernel
  have htaken : p.census.toPool = .ok p := (toPool_ok_iff hs.ascending).mpr ⟨hs.filed, rfl⟩
  have ht : (⟨1970, 1, 1, 0, 0, 0, 0⟩ : Timestamp).Valid := by
    constructor <;> decide
  obtain ⟨hcensus, htext, hstored⟩ := accepted_sound_iff
  obtain ⟨-, -, -, hp⟩ := hcensus p.census p hs.ascending htaken
  obtain ⟨q, hq, hsound⟩ := hstored p _ hs ht
  obtain ⟨a, -, heq, -, -, hiff⟩ := htext _ q hq
  exact ⟨hs, htaken, hp.mp hs, q, hq, hsound, heq ▸ hiff.mp hsound⟩

/-- An archive of no buckets that counts one species and one creature, with genes below their
low mark, is accepted. -/
theorem load_inconsistent :
    let p : Pool := { genes := ⟨0, 1, 0⟩, species := ⟨1, 0, 0⟩, creatures := ⟨1, 0, 0⟩ }
    p.census.toPool = .ok p ∧ (load (p.store ⟨1970, 1, 1, 0, 0, 0, 0⟩)).1 = .ok p ∧
      p.species.current.toInt ≠ p.buckets.length ∧ p.creatures.current.toInt ≠ p.held.card ∧
      ¬ p.genes.Ordered ∧ ¬ p.species.Ordered ∧ ¬ p.creatures.Ordered := by
  intro p
  have ht : (⟨1970, 1, 1, 0, 0, 0, 0⟩ : Timestamp).Valid := by
    constructor <;> decide
  refine ⟨rfl, load_store_filed (p := p) filed_nil ht, by decide, by decide, ?_, ?_, ?_⟩
  · exact fun h => absurd h.low_le (by decide)
  · exact fun h => absurd h.le_high (by decide)
  · exact fun h => absurd h.le_high (by decide)

end Pool

end Biotope
