import Biotope.Proofs.Seeding

/-!
# Overgrown seedings

Where every word of the stream is zero and the growth is certain to go on, a creature is a full
tree of branches. With 63 levels or more below its root it has more genes than 64 bits count: a
seeding breaks off before it has filed anything, and the count of genes has wrapped.
-/

namespace Biotope

namespace Stream

def Void (σ : Stream) : Prop := σ.word = fun _ => 0

theorem unit_void {σ : Stream} (h : σ.Void) : (unit σ).1 = 0.0 ∧ (unit σ).2.Void := by
  obtain ⟨word, i⟩ := σ
  cases h
  refine ⟨?_, rfl⟩
  show ((0 : UInt64) >>> 11).toFloat * Float.ofBits 0x3CA0000000000000 = 0.0
  decide +kernel

theorem below_void {σ : Stream} (h : σ.Void) :
    (below 8 (by decide) σ).1 = 0 ∧ (below 8 (by decide) σ).2.Void := by
  obtain ⟨word, i⟩ := σ
  cases h
  obtain ⟨fuel, hfuel⟩ : ∃ fuel, UInt64.size = fuel + 1 := ⟨2 ^ 64 - 1, rfl⟩
  have hzone : top 64 0 * 8 % (1 <<< 64) ≤ zone 64 8 := by decide +kernel
  -- the first candidate counts, so the number of those that may follow does not matter
  have hfirst : below 8 (by decide) ⟨fun _ => 0, i⟩ =
      (scaled 64 8 (by decide) 0, ⟨fun _ => 0, i + 1⟩) := by
    rw [below, belowOf, hfuel]
    show (if top 64 0 * 8 % (1 <<< 64) ≤ zone 64 8 then pure (scaled 64 8 (by decide) 0)
      else belowWithin 64 8 (Nat.succ_pos 7) fuel : Draw (Fin 8)) ⟨fun _ => 0, i + 1⟩ = _
    rw [if_pos hzone]
    rfl
  rw [hfirst]
  exact ⟨(by decide +kernel : scaled 64 8 (Nat.succ_pos 7) 0 = 0), rfl⟩

end Stream

/-! ## Counting in the void -/

namespace Growing

variable {α β : Type}

/-- Where every word is zero the growth counts `n` and ends with such a result. If the gauge has
no room for `n`, it wraps. The low mark stays in any case. -/
structure Counts (a : Growing α) (Q : α → Prop) (n : Nat) : Prop where
  room : ∀ {p : Plot}, p.stream.Void → p.genes.current.toInt + n < 2 ^ 63 →
    ∃ x q, a p = .ok x q ∧ Q x ∧ q.stream.Void ∧
      q.genes.current.toInt = p.genes.current.toInt + n ∧ q.genes.low = p.genes.low
  full : ∀ {p : Plot}, p.stream.Void → 2 ^ 63 ≤ p.genes.current.toInt + n →
    ∃ q, a p = .error .sumOverflow q ∧ q.genes.current = Int64.minValue ∧
      q.genes.low = p.genes.low

theorem counts_quiet {a : Growing α} {Q : α → Prop} (h : ∀ p : Plot, p.stream.Void →
    ∃ x q, a p = .ok x q ∧ Q x ∧ q.stream.Void ∧ q.genes = p.genes) : Counts a Q 0 := by
  constructor
  · intro p hp _
    obtain ⟨x, q, ha, hx, hq, hgenes⟩ := h p hp
    exact ⟨x, q, ha, hx, hq, by rw [hgenes, Nat.cast_zero, add_zero], by rw [hgenes]⟩
  · intro p _ hfull
    have := p.genes.current.toInt_lt
    omega

theorem counts_pure {Q : α → Prop} {x : α} (h : Q x) : Counts (pure x) Q 0 :=
  counts_quiet fun p hp => ⟨x, p, rfl, h, hp, rfl⟩

theorem counts_draw {d : Draw α} {Q : α → Prop}
    (h : ∀ σ : Stream, σ.Void → Q (d σ).1 ∧ (d σ).2.Void) : Counts (draw d) Q 0 :=
  counts_quiet fun p hp => ⟨_, _, rfl, (h p.stream hp).1, (h p.stream hp).2, rfl⟩

theorem counts_bind {a : Growing α} {f : α → Growing β} {Q : α → Prop} {R : β → Prop} {m n : Nat}
    (ha : Counts a Q m) (hf : ∀ x, Q x → Counts (f x) R n) : Counts (a >>= f) R (m + n) := by
  constructor
  · intro p hp hroom
    obtain ⟨x, q, hx, hQ, hq, hcount, hlow⟩ := ha.room hp (by omega)
    obtain ⟨y, r, hy, hR, hr, hcount', hlow'⟩ := (hf x hQ).room hq (by omega)
    refine ⟨y, r, ?_, hR, hr, by omega, hlow'.trans hlow⟩
    show EStateM.bind a f p = _
    rw [EStateM.bind, hx]
    exact hy
  · intro p hp hfull
    show ∃ q, EStateM.bind a f p = _ ∧ _
    rw [EStateM.bind]
    -- the gauge runs over in the first part or in the second one
    rcases lt_or_ge (p.genes.current.toInt + m) (2 ^ 63) with hroom | hover
    · obtain ⟨x, q, hx, hQ, hq, hcount, hlow⟩ := ha.room hp hroom
      obtain ⟨r, hr, hwrapped, hlow'⟩ := (hf x hQ).full hq (by omega)
      rw [hx]
      exact ⟨r, hr, hwrapped, hlow'.trans hlow⟩
    · obtain ⟨q, hq, hwrapped, hlow⟩ := ha.full hp hover
      rw [hq]
      exact ⟨q, rfl, hwrapped, hlow⟩

theorem counts_increment : Counts (count Gauge.increment) (fun _ => True) 1 := by
  constructor
  · intro p hp hroom
    obtain ⟨v, γ, hγ, hcount, -⟩ := Gauge.increment_ok (g := p.genes) (by omega)
    have hlow : γ.low = p.genes.low := by
      simp only [Gauge.increment] at hγ
      split at hγ <;> cases hγ
      rfl
    refine ⟨(), { p with genes := γ }, ?_, trivial, hp, hcount, hlow⟩
    simp only [count, hγ]
  · intro p _ hfull
    have hmax : p.genes.current = Int64.maxValue := by
      by_contra hne
      have := Gauge.lt_of_ne_max hne
      omega
    refine ⟨{ p with genes := { p.genes with current := p.genes.current + 1 } }, ?_, ?_, rfl⟩
    · simp only [count, Gauge.increment_max hmax]
    · show p.genes.current + 1 = _
      rw [hmax]
      rfl

end Growing

namespace Grower

open Growing

theorem counts_sample : Counts (draw Probability.sample) (·.value = 0.0) 0 := by
  refine counts_draw fun σ hσ => ?_
  obtain ⟨hunit, hvoid⟩ := Stream.unit_void hσ
  refine ⟨?_, hvoid⟩
  show (Probability.clamp (Stream.unit σ).1).value = 0.0
  rw [hunit]
  decide +kernel

section
variable {g : Grower} (hw : g.weights = none) (hc : g.complexity = .always)

include hw in
theorem counts_opcode : Counts g.opcode (· = .branch) 1 := by
  unfold opcode
  rw [hw]
  have hbelow : Counts (draw (Stream.below 8 (by decide))) (· = 0) 0 :=
    counts_draw fun σ hσ => Stream.below_void hσ
  have hdrawn : Counts (Opcode.ofIndex <$> draw (Stream.below 8 (by decide))) (· = .branch) 0 :=
    counts_bind hbelow fun i hi => counts_pure (hi ▸ rfl)
  exact counts_bind hdrawn fun o ho => counts_bind counts_increment fun _ _ => counts_pure ho

include hc in
theorem counts_goesOn : Counts g.goesOn (· = true) 0 := by
  refine counts_bind counts_sample fun p hp => counts_draw fun σ hσ => ?_
  obtain ⟨hunit, hvoid⟩ := Stream.unit_void hσ
  refine ⟨?_, hvoid⟩
  show decide ((Stream.unit σ).1 < (g.complexity.or p).value) = true
  rw [Probability.or, hunit, hp, hc]
  decide +kernel

include hc in
theorem counts_slot {child : Growing Gene} {n : Nat} (h : Counts child (fun _ => True) n) :
    Counts (g.slot (some child)) (fun _ => True) n := by
  rw [← Nat.zero_add n]
  refine counts_bind (counts_goesOn hc) fun yes hyes => ?_
  rw [if_pos hyes, ← Nat.add_zero n]
  exact counts_bind h fun _ _ => counts_pure trivial

include hw in
theorem counts_gene (source : TemplateSource) (room : Nat) {child : Option (Growing Gene)} {n : Nat}
    (h : Counts (g.slot child) (fun _ => True) n) :
    Counts (g.gene source room child) (fun _ => True) (1 + (n + n)) := by
  refine counts_bind (counts_opcode hw) fun o ho => ?_
  rw [ho]
  refine counts_bind h fun left _ => ?_
  rw [← Nat.add_zero n]
  exact counts_bind h fun right _ => counts_bind counts_sample fun _ _ => counts_pure trivial

include hw hc in
/-- Every place is taken, down to the last level. -/
theorem counts_grow (source : TemplateSource) : ∀ room,
    Counts (g.grow source room) (fun _ => True) (2 ^ (room + 1) - 1)
  | 0 => by
    have hslot : Counts (g.slot none) (fun _ => True) 0 := counts_pure trivial
    exact counts_gene hw source 0 hslot
  | room + 1 => by
    have hgene := counts_gene hw source (room + 1) (counts_slot hc (counts_grow source room))
    have hdouble : 1 + (2 ^ (room + 1) - 1 + (2 ^ (room + 1) - 1)) = 2 ^ (room + 2) - 1 := by
      have := Nat.one_le_two_pow (n := room + 1)
      rw [Nat.pow_succ 2 (room + 1)]
      omega
    rwa [hdouble] at hgene

end

end Grower

namespace Pool

open Act

/-- The seeding breaks off at the gene that can no longer be counted. The pool is as empty as it
was when the seeding began. -/
theorem seed_overgrown (n : Nat) (t : Probability) {g : Grower} (hw : g.weights = none)
    (hc : g.complexity = .always) (hp : g.policy = .template) (hdepth : 63 ≤ g.maximumDepth)
    {w : World} (hvoid : w.stream.Void) :
    ∃ v, seed (n + 1) t g w = .error .sumOverflow v ∧ v.pool.genes.current = Int64.minValue ∧
      v.pool.genes.low = 0 ∧ v.pool.held = 0 := by
  let u : World := { notified w with pool := { temperature := t } }
  have hstart : u.stream.Void := (congrArg Stream.word (notified_stream w)).trans hvoid
  have hfull : (2 ^ 63 : Int) ≤ 0 + ((2 ^ (g.maximumDepth + 1) - 1 : Nat) : Int) := by
    have hle : 2 ^ 64 ≤ 2 ^ (g.maximumDepth + 1) := Nat.pow_le_pow_right Nat.two_pos (by omega)
    omega
  obtain ⟨q, hq, hwrapped, hlow⟩ :=
    (Grower.counts_grow hw hc .nothing g.maximumDepth).full (p := ⟨{}, u.stream, 0⟩) hstart hfull
  have hgrown : grown g .nothing u = .error .sumOverflow
      { u with pool := { u.pool with genes := q.genes }, stream := q.stream } := by
    have hcreature : g.creature .nothing ⟨u.pool.genes, u.stream, 0⟩ = .error .sumOverflow q := hq
    simp only [grown, hcreature]
  have hsow : sow (n + 1) g u = .error .sumOverflow
      { u with pool := { u.pool with genes := q.genes }, stream := q.stream } := by
    simp only [sow, hp]
    exact bind_error (bind_error hgrown)
  exact ⟨_, (seed_eq ..).trans (entering_error hsow), hwrapped, hlow, rfl⟩

end Pool

end Biotope
