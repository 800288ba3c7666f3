import Biotope.Proofs.Populations

/-!
# Borrowed templates

A creature that borrows gets the shape of one that lives already, together with the templates
that this one has borrowed before. Nobody leaves a pool while it is seeded, so in the end every
template is of a live species.
-/

namespace Biotope

namespace Gene

mutual

/-- The templates of all `Get` genes in the tree, those inside other templates included. -/
def templates : Gene → List Gene
  | branch _ left right => templatesSlot left ++ templatesSlot right
  | get template => template.toList ++ templatesSlot template
  | sequence genes => templatesAll genes
  | chop _ | copy _ | merge | mutate _ | put => []

def templatesSlot : Option Gene → List Gene
  | none => []
  | some g => templates g

def templatesAll : List Gene → List Gene
  | [] => []
  | g :: gs => templates g ++ templatesAll gs

end

mutual

theorem length_templates_lt : ∀ g : Gene, g.templates.length < g.size
  | branch _ left right => by
    have := length_templatesSlot_le left
    have := length_templatesSlot_le right
    simp only [templates, size, List.length_append]
    omega
  | get none => Nat.one_pos
  | get (some t) => by
    have := length_templates_lt t
    simp only [templates, templatesSlot, size, sizeSlot, List.length_append, Option.toList_some,
      List.length_singleton]
    omega
  | sequence genes => by
    have := length_templatesAll_le genes
    simp only [templates, size]
    omega
  | chop _ | copy _ | merge | mutate _ | put => Nat.one_pos

theorem length_templatesSlot_le : ∀ slot, (templatesSlot slot).length ≤ sizeSlot slot
  | none => le_rfl
  | some g => (length_templates_lt g).le

theorem length_templatesAll_le : ∀ genes, (templatesAll genes).length ≤ sizeAll genes
  | [] => le_rfl
  | g :: gs => by
    have := length_templates_lt g
    have := length_templatesAll_le gs
    simp only [templatesAll, sizeAll, List.length_append]
    omega

end

end Gene

/-! ## Growing with templates to borrow -/

namespace Grower

open Gene

section
variable {g : Grower} {source : TemplateSource} {P : Gene → Prop}

mutual

/-- What holds of the offered shapes and of the templates in them holds of all templates in a
creature that borrows. -/
theorem Grown.templates (hp : g.policy = .existingSpecies)
    (hP : ∀ t, source.Offers t → P t ∧ ∀ u ∈ t.templates, P u) {room : Nat} {x : Gene} {n : Int} :
    g.Grown source room x n → ∀ t ∈ x.templates, P t
  | .lone _ hx, t, ht => by
    -- a single gene has no room for a template
    have hlt := x.length_templates_lt
    have hpos := List.length_pos_of_mem ht
    omega
  | .branch _ hl hr _, t, ht =>
    (List.mem_append.mp ht).elim (hl.templates hp hP t) (hr.templates hp hP t)
  | .nested _ hn _, _, _ => by
    rw [hp] at hn
    cases hn
  | .borrowed _ _ .none, _, ht => by cases ht
  | .borrowed _ _ (.some h _), u, hu => by
    obtain ⟨ht, hinner⟩ := hP _ h
    rcases List.mem_cons.mp hu with rfl | hu
    · exact ht
    · exact hinner u hu
  | .sequence _ _ hs, t, ht => hs.templates hp hP t ht

theorem GrownSlot.templates (hp : g.policy = .existingSpecies)
    (hP : ∀ t, source.Offers t → P t ∧ ∀ u ∈ t.templates, P u) {room : Nat} {x : Option Gene}
    {n : Int} : g.GrownSlot source room x n → ∀ t ∈ templatesSlot x, P t
  | .none, _, ht => by cases ht
  | .some h, t, ht => h.templates hp hP t ht

theorem GrownAll.templates (hp : g.policy = .existingSpecies)
    (hP : ∀ t, source.Offers t → P t ∧ ∀ u ∈ t.templates, P u) {room : Nat} {xs : List Gene}
    {n : Int} : g.GrownAll source room xs n → ∀ t ∈ templatesAll xs, P t
  | .nil, _, ht => by cases ht
  | .cons h hs, t, ht =>
    (List.mem_append.mp ht).elim (h.templates hp hP t) (hs.templates hp hP t)

end

end

end Grower

namespace Pool

open Act

def Resolved (p : Pool) : Prop :=
  ∀ x ∈ p.held, ∀ t ∈ x.templates, ∃ c ∈ p.held, c.species = t.species

section
variable {g : Grower} {n : Nat} {w v : World} {u : Unit}

theorem Resolved.gained {p q : Pool} {x : Gene} (h : p.Resolved) (hq : Gained p x q)
    (hx : ∀ t ∈ x.templates, ∃ c ∈ p.held, c.species = t.species) : q.Resolved := by
  intro y hy t ht
  rw [hq.held, Multiset.mem_cons] at hy
  have hold : ∃ c ∈ p.held, c.species = t.species := by
    rcases hy with rfl | hy
    · exact hx t ht
    · exact h y hy t ht
  obtain ⟨c, hc, hspecies⟩ := hold
  exact ⟨c, hq.held ▸ Multiset.mem_cons_of_mem hc, hspecies⟩

theorem Resolved.grown {x : Gene} (h : w.pool.Resolved) (hp : g.policy = .existingSpecies)
    (hx : grown g (fun _ => w.pool.sampleMember) w = .ok x v) :
    ∀ t ∈ x.templates, ∃ c ∈ w.pool.held, c.species = t.species := by
  obtain ⟨-, -, hx⟩ := of_grown_ok hx
  have hoffered (t : Gene) (ht : TemplateSource.Offers (fun _ => w.pool.sampleMember) t) :
      (∃ c ∈ w.pool.held, c.species = t.species) ∧
        ∀ u ∈ t.templates, ∃ c ∈ w.pool.held, c.species = u.species := by
    obtain ⟨_, σ, ht⟩ := ht
    have hheld := mem_of_sampleMember ht
    exact ⟨⟨t, hheld, rfl⟩, h t hheld⟩
  exact hx.templates hp hoffered

theorem Resolved.settle (h : w.pool.Resolved) (hf : Filed w.pool.buckets)
    (hp : g.policy = .existingSpecies) (hv : settle g n w = .ok u v) : v.pool.Resolved := by
  induction n generalizing w with
  | zero =>
    obtain ⟨-, rfl⟩ := of_pure_ok hv
    exact h
  | succ n ih =>
    obtain ⟨p, r, hr, hv⟩ := of_bind_ok hv
    cases hr
    obtain ⟨x, s, hx, hv⟩ := of_bind_ok hv
    obtain ⟨_, t, ht, hv⟩ := of_bind_ok hv
    -- growing files nothing, so the new creature borrows from those that are still held
    obtain ⟨hbuckets, -, -⟩ := of_grown_ok hx
    have hheld : s.pool.held = w.pool.held := congrArg contents hbuckets
    obtain ⟨hgained, -, -⟩ := of_insert_ok (hbuckets ▸ hf) ht
    refine ih (Resolved.gained ?_ hgained ?_) hgained.filed hv
    · rw [Resolved, hheld]
      exact h
    · rw [hheld]
      exact h.grown hp hx

theorem of_seed_resolved {t : Probability} (hp : g.policy = .existingSpecies)
    (h : seed n t g w = .ok u v) : v.pool.Resolved := by
  rw [seed_eq] at h
  have h := of_entering_ok h
  simp only [sow, hp] at h
  obtain ⟨_, s, hs, hv⟩ := of_bind_ok h
  let w₀ : World := { notified w with pool := { temperature := t } }
  have hempty : w₀.pool.Resolved := fun x hx => absurd hx (Multiset.notMem_zero x)
  have hresolved := hempty.settle filed_nil hp hs
  cases hv
  exact hresolved

end

theorem take_live {w : World} (h : w.pool.Sound) {c : Gene} (hc : c ∈ w.pool.held) :
    ∃ d v, take c.species w = .ok (some d) v ∧ d.species = c.species := by
  obtain ⟨d, v, hv, hany | hspecies⟩ := take_some h.tallied hc (.inr rfl)
  · exact absurd hany (SpeciesId.ofHash_ne_any _)
  · exact ⟨d, v, hv, hspecies⟩

/-- In a population that has been seeded with borrowed templates every template, however deep in
a creature or in another template, is of a live species, and a request for this species gets a
creature whatever the world around the pool is like. -/
theorem templates_resolved (s : PoolSettings) (hs : s.getPolicy = .existingSpecies) (w v : World)
    (h : seedWith s w = .ok (.ok ()) v) :
    ∀ x ∈ v.pool.held, ∀ t ∈ x.templates, t.species ∈ v.pool.ids ∧
      ∀ u : World, u.pool = v.pool →
        ∃ c u', take t.species u = .ok (some c) u' ∧ c.species = t.species := by
  have hseed : ∃ t g, g.policy = .existingSpecies ∧
      seed s.initialCreatures.toNat t g w = .ok () v := by
    cases hplan : plan s with
    | error f =>
      rw [seedWith, hplan] at h
      cases h
    | ok r =>
      rw [seedWith, hplan] at h
      cases r with
      | error e => cases h
      | ok plan =>
        obtain ⟨t, g⟩ := plan
        obtain ⟨⟨⟩, u, hu, h⟩ := of_bind_ok h
        cases h
        exact ⟨t, g, (follows_of_plan hplan).policy.trans hs, hu⟩
  obtain ⟨t, g, hp, hseed⟩ := hseed
  have hsound := of_seed_ok hseed
  intro x hx t ht
  -- every template has been borrowed from a creature of its species that is still held
  obtain ⟨c, hc, hspecies⟩ := of_seed_resolved hp hseed x hx t ht
  rw [← hspecies]
  refine ⟨?_, fun u hu => take_live (hu ▸ hsound) (hu ▸ hc)⟩
  obtain ⟨b, hb, hmem⟩ := mem_contents.mp hc
  rw [hsound.species_eq b hb c hmem]
  exact List.mem_map_of_mem hb

/-- The second of two `Get` genes borrows the first, and one of them can be taken. -/
theorem templates_resolved_pair :
    let s : PoolSettings :=
      { initialCreatures := 2, maximumDepth := 1, getPolicy := .existingSpecies
        opcodeWeights := some [0.0, 0.0, 0.0, 1.0, 0.0, 0.0, 0.0, 0.0] }
    ∃ v, seedWith s { stream := .seeded 7 } = .ok (.ok ()) v ∧
      ∃ x ∈ v.pool.held, ∃ t ∈ x.templates, t.species ∈ v.pool.ids ∧
        ∃ c u, take t.species v = .ok (some c) u ∧ c.species = t.species := by
  intro s
  let w : World := { stream := .seeded 7 }
  have hdone : (match seedWith s w with
    | .ok (.ok _) v => v.pool.creatureList.any fun x => !x.templates.isEmpty
    | _ => false) = true := by decide +kernel
  split at hdone
  · rename_i v hv
    obtain ⟨x, hx, ht⟩ := List.any_eq_true.mp hdone
    obtain ⟨t, ht⟩ := List.exists_mem_of_ne_nil x.templates (by simpa using ht)
    have hheld : x ∈ v.pool.held := by
      rw [← coe_creatureList]
      exact hx
    obtain ⟨hlive, htake⟩ := templates_resolved s rfl w v hv x hheld t ht
    exact ⟨v, hv, x, hheld, t, ht, hlive, htake v rfl⟩
  · cases hdone

end Pool

end Biotope
