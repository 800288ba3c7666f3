import Biotope.Proofs.Circulation
import Biotope.Proofs.Replicas

/-!
# Mimics

A mimic has the species of a lone gene, and more genes than one. If replication is supplied
with a mimic of another opcode it puts it back, and a `Sequence` keeps the items that it came
with. A `Branch` or a `Get` is emptied instead, and what is replaced in it is lost. Nothing else
is lost, and replication never breaks off.
-/

namespace Biotope

open Act Gene

/-! ## Acts that cannot fail -/

structure Served (w : World) : Prop where
  sound : w.pool.Sound
  drill : w.drill = none

theorem Act.Undisturbed.served {w v : World} (h : Undisturbed w v) (hw : Served w) : Served v :=
  ⟨h.pool ▸ hw.sound, h.frame.drill.trans hw.drill⟩

def Sure {α : Type} (a : Act α) : Prop := ∀ w, Served w → ∃ x v, a w = .ok x v ∧ Served v

section
variable {α β : Type}

theorem sure_pure (x : α) : Sure (pure x : Act α) := fun w hw => ⟨x, w, rfl, hw⟩

theorem sure_bind {a : Act α} {f : α → Act β} (ha : Sure a) (hf : ∀ x, Sure (f x)) :
    Sure (a >>= f) := by
  intro w hw
  obtain ⟨x, u, hx, hu⟩ := ha w hw
  obtain ⟨y, v, hy, hv⟩ := hf x u hu
  exact ⟨y, v, (bind_ok hx).trans hy, hv⟩

theorem sure_ite {c : Prop} [Decidable c] {a b : Act α} (ha : Sure a) (hb : Sure b) :
    Sure (if c then a else b) := by
  split
  · exact ha
  · exact hb

theorem sure_calm {a : Act α} {Q : α → Prop} (ha : Calm a Q) : Sure a := by
  intro w hw
  obtain ⟨x, v, hv, hu, -⟩ := ha w
  exact ⟨x, v, hv, hu.served hw⟩

end

/-! ## Below the root -/

def Gene.inner (g : Gene) : Multiset Opcode := g.opcodes.erase g.opcode

theorem Gene.opcodes_eq_inner (g : Gene) : g.opcodes = {g.opcode} + g.inner :=
  (Multiset.cons_erase g.opcode_mem_opcodes).symm

theorem Gene.inner_of_size_eq_one {g : Gene} (h : g.size = 1) : g.inner = 0 := by
  rw [inner, opcodes_of_size_lt (by omega), Multiset.erase_singleton]

theorem Gene.isLeaf_congr {f g : Gene} (h : f.opcode = g.opcode) : f.isLeaf = g.isLeaf := by
  cases f <;> cases g <;> first | rfl | cases h

/-! ## Pools of one creature -/

namespace Pool

def solitary (g : Gene) : Pool :=
  { buckets := [(g.species, { members := #[g] })]
    species := { current := 1, high := 1 }
    creatures := { current := 1, high := 1 } }

theorem held_solitary (g : Gene) : (solitary g).held = {g} := rfl

theorem opcodes_solitary (g : Gene) : (solitary g).opcodes = g.opcodes := by
  rw [opcodes, held_solitary, Multiset.map_singleton, Multiset.sum_singleton]

theorem sound_solitary (g : Gene) : (solitary g).Sound := by
  have hordered : Gauge.Ordered { current := 1, high := 1 } := ⟨by decide, by decide⟩
  have hb : ∀ b ∈ (solitary g).buckets, b = (g.species, { members := #[g] }) :=
    fun b hb => List.mem_singleton.mp hb
  refine ⟨List.pairwise_singleton _ _, ?_, ?_, ?_, rfl, ?_, Gauge.ordered_zero, hordered,
    hordered⟩
  · intro b h
    simp [hb b h]
  · intro b h
    rw [hb b h]
    exact SpeciesId.ofHash_ne_any _
  · intro b h c hc
    rw [hb b h] at hc ⊢
    rw [List.mem_singleton.mp (Array.mem_toList_iff.mpr hc)]
  · rw [held_solitary, Multiset.card_singleton]
    rfl

end Pool

/-! ## Supplies out of a sound pool -/

namespace Program

section
variable {o : Opcode} {w v : World}

/-- A request for a lone gene's species takes a creature of this species out of a sound pool,
or changes nothing. -/
theorem of_request_sound (hw : w.pool.Sound) {x : Option Gene}
    (h : Pool.request o.species w = .ok x v) : Pool.Taken o.species w.pool x v.pool := by
  obtain ⟨u, hu, ht⟩ := Pool.of_request_ok (species_ne_any o) h
  rw [← hu] at hw ⊢
  exact (Pool.of_take_ok hw.filed ht).1

theorem lost_of_request {g : Gene} (hw : w.pool.Sound)
    (h : Pool.request o.species w = .ok (some g) v) :
    Pool.Lost w.pool g v.pool ∧ g.species = o.species := by
  cases of_request_sound hw h with
  | some ha hl => exact ⟨hl, ha.resolve_left (species_ne_any o)⟩

theorem sure_request (o : Opcode) : Sure (Pool.request o.species) := by
  intro w hw
  obtain ⟨y, u, hy, hundisturbed, hsome⟩ := Pool.calm_assign o.species w
  obtain rfl := hsome (species_ne_any o)
  have hu := hundisturbed.served hw
  obtain ⟨x, v, hv⟩ := Pool.take_done hu.sound.tallied o.species
  obtain ⟨ht, hframe, -⟩ := Pool.of_take_ok hu.sound.filed hv
  have hrequest : Pool.request o.species w = .ok x v := by
    unfold Pool.request
    rw [bind_ok hy]
    exact (bind_ok (rehearse_none hu.drill)).trans hv
  exact ⟨x, v, hrequest, ht.sound hu.sound, hframe.drill.trans hu.drill⟩

/-- There is room for a creature that has just been taken. -/
theorem sure_supply (o : Opcode) : Sure (supply o) := by
  intro w hw
  obtain ⟨x, u, hx, hu⟩ := sure_request o w hw
  unfold supply
  rw [bind_ok hx]
  cases x with
  | none => exact ⟨none, u, rfl, hu⟩
  | some g =>
    by_cases ho : g.opcode = o
    · exact ⟨some g, u, by simp only [if_pos ho]; rfl, hu⟩
    · simp only [if_neg ho]
      have hroom : u.pool.held.card < 2 ^ 63 - 1 := by
        have hlt := hw.sound.tallied.card_lt
        rw [(lost_of_request hw.sound hx).1.held, Multiset.card_cons] at hlt
        omega
      obtain ⟨⟨⟩, v, hv⟩ := Pool.put_done hu.sound.tallied hroom g
      obtain ⟨hgained, hframe, -⟩ := Pool.of_put_ok hu.sound.filed hv
      exact ⟨none, v, bind_ok hv, hgained.sound hu.sound, hframe.drill.trans hu.drill⟩

end

mutual

theorem sure_replicate (p : Probability) : ∀ g, Sure (replicate p g)
  | .branch q left right => by
    unfold replicate
    refine sure_bind (sure_supply .branch) fun x => ?_
    cases x with
    | none => exact sure_pure none
    | some _ =>
      exact sure_bind (sure_replicateSlot p left) fun _ =>
        sure_bind (sure_replicateSlot p right) fun _ => sure_pure _
  | .chop _ | .copy _ | .mutate _ => by
    unfold replicate
    exact sure_bind (sure_supply _) fun _ => sure_pure _
  | .merge | .put => by
    unfold replicate
    exact sure_supply _
  | .get template => by
    unfold replicate
    refine sure_bind (sure_supply .get) fun x => ?_
    cases x with
    | none => exact sure_pure none
    | some _ => exact sure_bind (sure_replicateTemplate p template) fun _ => sure_pure _
  | .sequence genes => by
    unfold replicate
    refine sure_bind (sure_supply .sequence) fun x => ?_
    cases x with
    | none => exact sure_pure none
    | some _ => exact sure_bind (sure_replicateAll p genes) fun _ => sure_pure _

theorem sure_replicateSlot (p : Probability) : ∀ slot, Sure (replicateSlot p slot)
  | none => by
    unfold replicateSlot
    exact sure_pure none
  | some child => by
    unfold replicateSlot
    exact sure_bind (sure_calm (Pool.calm_flip p)) fun _ =>
      sure_ite (sure_replicate p child) (sure_pure none)

theorem sure_replicateTemplate (p : Probability) : ∀ template, Sure (replicateTemplate p template)
  | none => by
    unfold replicateTemplate
    exact sure_pure none
  | some template => by
    unfold replicateTemplate
    exact sure_replicate p template

theorem sure_replicateAll (p : Probability) : ∀ items, Sure (replicateAll p items)
  | [] => by
    unfold replicateAll
    exact sure_pure []
  | item :: items => by
    unfold replicateAll
    refine sure_bind (sure_calm (Pool.calm_flip p)) fun _ =>
      sure_ite (sure_bind (sure_replicate p item) fun x => ?_) (sure_replicateAll p items)
    cases x with
    | none => exact sure_replicateAll p items
    | some _ => exact sure_bind (sure_replicateAll p items) fun _ => sure_pure _

end

/-! ## What is emptied -/

/-- A creature that passes for a lone `Branch` or `Get`, and may be one. -/
def Posing (c : Gene) : Prop :=
  (c.opcode = .branch ∨ c.opcode = .get) ∧ c.species = c.opcode.species

instance (c : Gene) : Decidable (Posing c) :=
  inferInstanceAs (Decidable ((c.opcode = .branch ∨ c.opcode = .get) ∧ c.species = c.opcode.species))

/-- How replication leaves a pool, with the genes that it has made and the creatures that it
has emptied. -/
structure Cost (p q : Pool) (made : Multiset Opcode) (emptied : Multiset Gene) : Prop where
  sound : q.Sound
  held : emptied + q.held ≤ p.held
  posing : ∀ c ∈ emptied, Posing c
  opcodes : q.opcodes + made + (emptied.map inner).sum = p.opcodes

def Costs (p q : Pool) (made : Multiset Opcode) : Prop := ∃ emptied, Cost p q made emptied

section
variable {p q r : Pool} {made made' : Multiset Opcode}

theorem costs_of_held (hq : q.Sound) (h : q.held = p.held) : Costs p q 0 := by
  refine ⟨0, hq, ?_, by simp, ?_⟩
  · rw [zero_add, h]
  · rw [Pool.opcodes, h, ← Pool.opcodes]
    simp

theorem Costs.sound : Costs p q made → q.Sound
  | ⟨_, h⟩ => h.sound

theorem Costs.trans : Costs p q made → Costs q r made' → Costs p r (made + made')
  | ⟨es, h₁⟩, ⟨es', h₂⟩ => by
    refine ⟨es + es', h₂.sound, ?_, fun c hc => ?_, ?_⟩
    · calc es + es' + r.held = es + (es' + r.held) := add_assoc _ _ _
        _ ≤ es + q.held := add_le_add_right h₂.held es
        _ ≤ p.held := h₁.held
    · exact (Multiset.mem_add.mp hc).elim (h₁.posing c) (h₂.posing c)
    · rw [← h₁.opcodes, ← h₂.opcodes, Multiset.map_add, Multiset.sum_add]
      abel

/-- All that was taken is in what was made. -/
theorem costs_whole {f : Gene} (hp : p.Sound) (h : Pool.Lost p f q) : Costs p q f.opcodes := by
  refine ⟨0, h.sound hp, ?_, by simp, ?_⟩
  · rw [zero_add, h.held]
    exact Multiset.le_cons_self _ f
  · rw [Pool.opcodes_of_cons h.held]
    simp [add_comm]

/-- Of what was taken only the root has been used. -/
theorem costs_root {f : Gene} (hp : p.Sound) (h : Pool.Lost p f q) (hf : Posing f) :
    Costs p q {f.opcode} := by
  refine ⟨{f}, h.sound hp, ?_, by simpa using hf, ?_⟩
  · rw [h.held, Multiset.singleton_add]
  · rw [Pool.opcodes_of_cons h.held, f.opcodes_eq_inner, Multiset.map_singleton,
      Multiset.sum_singleton]
    abel

end

section
variable {o : Opcode} {w v : World} {f : Gene}

theorem costs_none (hw : w.pool.Sound) (h : supply o w = .ok none v) :
    Costs w.pool v.pool 0 := by
  cases of_supply_ok h with
  | missed h =>
    have ht := of_request_sound hw h
    generalize hq : v.pool = q at ht
    cases ht with
    | none _ => exact costs_of_held hw rfl
  | returned h ho hput =>
    obtain ⟨hlost, -⟩ := lost_of_request hw h
    have hu := hlost.sound hw
    obtain ⟨hgained, -, -⟩ := Pool.of_put_ok hu.filed hput
    exact costs_of_held (hgained.sound hu) (by rw [hgained.held, hlost.held])

theorem lost_of_supply (hw : w.pool.Sound) (h : supply o w = .ok (some f) v) :
    Pool.Lost w.pool f v.pool ∧ f.opcode = o ∧ f.species = f.opcode.species := by
  cases of_supply_ok h with
  | fresh h ho =>
    obtain ⟨hlost, hspecies⟩ := lost_of_request hw h
    exact ⟨hlost, ho, ho ▸ hspecies⟩

theorem costs_flip {p : Probability} {yes : Bool} (hw : w.pool.Sound)
    (h : Pool.flip p w = .ok yes v) : Costs w.pool v.pool 0 := by
  have hpool := (Pool.calm_flip p).idle.pool_eq h
  exact costs_of_held (hpool ▸ hw) (by rw [hpool])

end

section
variable {p : Probability}

mutual

theorem Copies.costs : ∀ {g : Gene} {w v : World} {x : Option Gene}, Copies p g w x v →
    w.pool.Sound → Costs w.pool v.pool (opcodesSlot x)
  | _, _, _, _, .missed h, hw => costs_none hw h
  | g, _, _, _, .leaf (f := f) hg h, hw => by
    obtain ⟨hlost, ho, -⟩ := lost_of_supply hw h
    have hf : f.isLeaf = true := (isLeaf_congr ho).trans hg
    rw [opcodesSlot_some, opcodes_of_isLeaf hg, ← ho, ← opcodes_of_isLeaf hf]
    exact costs_whole hw hlost
  | _, _, _, _, .branch h hl hr, hw => by
    obtain ⟨hlost, ho, hspecies⟩ := lost_of_supply hw h
    have hroot := costs_root hw hlost ⟨.inl ho, hspecies⟩
    have hleft := hroot.trans (hl.costs hroot.sound)
    rw [opcodesSlot_some, opcodes_branch, ← ho]
    exact hleft.trans (hr.costs hleft.sound)
  | _, _, _, _, .get h ht, hw => by
    obtain ⟨hlost, ho, hspecies⟩ := lost_of_supply hw h
    have hroot := costs_root hw hlost ⟨.inr ho, hspecies⟩
    rw [opcodesSlot_some, opcodes_get, ← ho]
    exact hroot.trans (ht.costs hroot.sound)
  | _, _, _, _, .sequence h hgs, hw => by
    obtain ⟨hlost, ho, -⟩ := lost_of_supply hw h
    have hroot := costs_whole hw hlost
    rw [← opcodes_of_sequence ho] at hroot
    rw [opcodesSlot_some, opcodes_sequence, opcodesAll_append, ← add_assoc]
    exact hroot.trans (hgs.costs hroot.sound)

theorem CopiesSlot.costs : ∀ {slot : Option Gene} {w v : World} {x : Option Gene},
    CopiesSlot p slot w x v → w.pool.Sound → Costs w.pool v.pool (opcodesSlot x)
  | _, _, _, _, .absent, hw => costs_of_held hw rfl
  | _, _, _, _, .barred h, hw => costs_flip hw h
  | _, _, _, _, .tried h hg, hw => by
    have htoss := costs_flip hw h
    rw [← zero_add (opcodesSlot _)]
    exact htoss.trans (hg.costs htoss.sound)

theorem CopiesTemplate.costs : ∀ {slot : Option Gene} {w v : World} {x : Option Gene},
    CopiesTemplate p slot w x v → w.pool.Sound → Costs w.pool v.pool (opcodesSlot x)
  | _, _, _, _, .absent, hw => costs_of_held hw rfl
  | _, _, _, _, .tried hg, hw => hg.costs hw

theorem CopiesAll.costs : ∀ {gs hs : List Gene} {w v : World}, CopiesAll p gs w hs v →
    w.pool.Sound → Costs w.pool v.pool (opcodesAll hs)
  | _, _, _, _, .nil, hw => costs_of_held hw rfl
  | _, _, _, _, .barred h hgs, hw => by
    have htoss := costs_flip hw h
    rw [← zero_add (opcodesAll _)]
    exact htoss.trans (hgs.costs htoss.sound)
  | _, _, _, _, .tried h hg hgs, hw => by
    have htoss := costs_flip hw h
    have hitem := htoss.trans (hg.costs htoss.sound)
    rw [zero_add] at hitem
    rw [opcodesAll_append, opcodesAll_toList]
    exact hitem.trans (hgs.costs hitem.sound)

end

end

/-- Replication is always done. What the pool has lost is in the replica, but for what was
below the roots of the `Branch` and `Get` creatures that it has emptied; so where none of these
two that has children has the species of a lone gene of its opcode, nothing is lost. -/
theorem replicate_conserves (p : Probability) (g : Gene) (w : World) (hw : w.pool.Sound)
    (hd : w.drill = none) :
    ∃ x v, replicate p g w = .ok x v ∧ v.pool.Sound ∧
      (∃ emptied : Multiset Gene, emptied + v.pool.held ≤ w.pool.held ∧
        (∀ c ∈ emptied, Posing c) ∧
        v.pool.opcodes + opcodesSlot x + (emptied.map inner).sum = w.pool.opcodes) ∧
      ((∀ c ∈ w.pool.held, Posing c → c.size = 1) →
        v.pool.opcodes + opcodesSlot x = w.pool.opcodes) := by
  obtain ⟨x, v, hv, -⟩ := sure_replicate p g w ⟨hw, hd⟩
  obtain ⟨emptied, hcost⟩ := (copies_of_ok p g w v x hv).costs hw
  refine ⟨x, v, hv, hcost.sound, ⟨emptied, hcost.held, hcost.posing, hcost.opcodes⟩,
    fun hlone => ?_⟩
  have hinner : (emptied.map inner).sum = 0 := by
    refine Multiset.sum_eq_zero fun os hos => ?_
    obtain ⟨c, hc, rfl⟩ := Multiset.mem_map.mp hos
    have hheld : c ∈ w.pool.held :=
      Multiset.mem_of_le hcost.held (Multiset.mem_add.mpr (.inl hc))
    exact inner_of_size_eq_one (hlone c hheld (hcost.posing c hc))
  rw [← hcost.opcodes, hinner, add_zero]

set_option maxRecDepth 4000 in
/-- Lone genes pose as themselves, and the replica is made of one of each. -/
theorem replicate_conserves_nested :
    let g : Gene := .branch .even (some (.get (some .put))) none
    let lone : Gene := .branch .never none none
    let p : Pool :=
      { buckets := [(lone.species, ⟨#[lone, lone]⟩), (Gene.put.species, ⟨#[.put, .put]⟩),
          ((Gene.get none).species, ⟨#[.get none]⟩)]
        temperature := .always, species := .ofValue 3, creatures := .ofValue 5 }
    let w : World := { pool := p, stream := .seeded 0 }
    w.pool.Sound ∧ w.drill = none ∧ lone ∈ w.pool.held ∧ Posing lone ∧
      (∀ c ∈ w.pool.held, Posing c → c.size = 1) ∧
      ∃ c v, replicate .always g w = .ok (some c) v ∧ c.opcodes = {.branch, .get, .put} ∧
        v.pool.opcodes + c.opcodes = w.pool.opcodes := by
  intro g lone p w
  have hw : w.pool.Sound := by decide +kernel
  have hheld : lone ∈ w.pool.held :=
    Pool.mem_contents.mpr ⟨_, List.mem_cons_self, by simp⟩
  have hlone : ∀ c ∈ w.pool.held, Posing c → c.size = 1 := by decide +kernel
  have hopcodes : ((replicate .always g).run' w).map (·.map opcodes) =
      some (some {.branch, .get, .put}) := by decide +kernel
  obtain ⟨x, v, hv, -, -, hconserves⟩ := replicate_conserves .always g w hw rfl
  rw [EStateM.run', EStateM.run, hv] at hopcodes
  obtain ⟨c, rfl, hc⟩ := Option.map_eq_some_iff.mp (Option.some.inj hopcodes)
  exact ⟨hw, rfl, hheld, ⟨.inl rfl, rfl⟩, hlone, c, v, hv, hc, hconserves hlone⟩

/-! ## A mimic -/

/-- The only creature is of the opcode and of its species, so it is what is supplied. -/
theorem supply_solitary {o : Opcode} {m : Gene} {w : World} (hw : Served w) (hm : m.opcode = o)
    (hs : m.species = o.species) (hheld : w.pool.held = {m}) :
    ∃ v, supply o w = .ok (some m) v ∧ v.pool.held = 0 := by
  obtain ⟨x, v, hv, -⟩ := sure_request o w hw
  cases x with
  | none =>
    exfalso
    have htaken := of_request_sound hw.sound hv
    generalize v.pool = q at htaken
    cases htaken with
    | none hnone => exact hnone m (by simp [hheld]) (.inr hs)
  | some g =>
    have hlost := (lost_of_request hw.sound hv).1.held
    rw [hheld, Multiset.singleton_eq_cons_iff] at hlost
    obtain ⟨rfl, hempty⟩ := hlost
    refine ⟨v, ?_, hempty⟩
    unfold supply
    rw [bind_ok hv]
    simp only [if_pos hm]
    rfl

def mimic : Gene :=
  .branch .even none (some (.sequence [.copy .even, .put, .copy .even, .merge, .put, .chop .even,
    .sequence [], .mutate .even, .put, .put, .sequence []]))

theorem species_mimic : mimic.species = Opcode.branch.species := by
  simp only [Opcode.species, Gene.species_forced]
  decide +kernel

/-- Twelve genes are in the pool before and nowhere after. -/
theorem replicate_loses :
    let w : World := { pool := .solitary mimic, stream := .seeded 0 }
    let lone : Gene := .branch .even none none
    w.pool.Sound ∧ w.drill = none ∧ ∃ v, replicate .even lone w = .ok (some lone) v ∧
      v.pool.opcodes + opcodesSlot (some lone) ≠ w.pool.opcodes := by
  intro w lone
  have hw : Served w := ⟨Pool.sound_solitary _, rfl⟩
  obtain ⟨v, hv, hheld⟩ := supply_solitary (o := .branch) hw rfl species_mimic rfl
  have hcopy : replicate .even lone w = .ok (some lone) v := by
    unfold replicate
    rw [bind_ok hv]
    simp only [replicateSlot]
    rfl
  refine ⟨hw.sound, hw.drill, v, hcopy, fun h => ?_⟩
  rw [Pool.opcodes_solitary, Pool.opcodes, hheld] at h
  have hcard := congrArg Multiset.card h
  rw [Multiset.map_zero, Multiset.sum_zero, zero_add, opcodesSlot_some, card_opcodes,
    card_opcodes] at hcard
  exact absurd hcard (by decide)

end Program

end Biotope
