import Biotope.Proofs.Supplies

/-!
# Replicas

A replica is a pruned image of its source: arms, templates and items may be missing, and
nothing else is different. Where only lone genes of the opcode are filed under a lone gene's
species, the pool has lost one of them for every gene of the replica and nothing else.
-/

namespace Biotope

open Act Gene

/-! ## Images -/

mutual

inductive Image : Gene → Gene → Prop where
  | leaf {g : Gene} (h : g.isLeaf = true) : Image g g
  | branch {q : Probability} {l r l' r' : Option Gene} (hl : ImageSlot l l')
      (hr : ImageSlot r r') : Image (.branch q l r) (.branch q l' r')
  | get {t t' : Option Gene} (h : ImageSlot t t') : Image (.get t) (.get t')
  | sequence {gs hs : List Gene} (h : ImageAll gs hs) : Image (.sequence gs) (.sequence hs)

inductive ImageSlot : Option Gene → Option Gene → Prop where
  | absent (s : Option Gene) : ImageSlot s none
  | present {g h : Gene} (hg : Image g h) : ImageSlot (some g) (some h)

inductive ImageAll : List Gene → List Gene → Prop where
  | nil : ImageAll [] []
  | skip {g : Gene} {gs hs : List Gene} (h : ImageAll gs hs) : ImageAll (g :: gs) hs
  | keep {g h : Gene} {gs hs : List Gene} (hg : Image g h) (hgs : ImageAll gs hs) :
      ImageAll (g :: gs) (h :: hs)

end

namespace Program

/-! ## What replication consists of -/

mutual

inductive Copies (p : Probability) : Gene → World → Option Gene → World → Prop where
  | missed {g : Gene} {w v : World} (h : supply g.opcode w = .ok none v) : Copies p g w none v
  | leaf {g f : Gene} {w v : World} (hg : g.isLeaf = true)
      (h : supply g.opcode w = .ok (some f) v) : Copies p g w (some g) v
  | branch {q : Probability} {l r l' r' : Option Gene} {f : Gene} {w u t v : World}
      (h : supply .branch w = .ok (some f) u) (hl : CopiesSlot p l u l' t)
      (hr : CopiesSlot p r t r' v) : Copies p (.branch q l r) w (some (.branch q l' r')) v
  | get {t t' : Option Gene} {f : Gene} {w u v : World} (h : supply .get w = .ok (some f) u)
      (ht : CopiesTemplate p t u t' v) : Copies p (.get t) w (some (.get t')) v
  | sequence {gs hs : List Gene} {f : Gene} {w u v : World}
      (h : supply .sequence w = .ok (some f) u) (hgs : CopiesAll p gs u hs v) :
      Copies p (.sequence gs) w (some (.sequence (itemsOf f ++ hs))) v

inductive CopiesSlot (p : Probability) : Option Gene → World → Option Gene → World → Prop where
  | absent {w : World} : CopiesSlot p none w none w
  | barred {g : Gene} {w v : World} (h : Pool.flip p w = .ok false v) :
      CopiesSlot p (some g) w none v
  | tried {g : Gene} {x : Option Gene} {w u v : World} (h : Pool.flip p w = .ok true u)
      (hg : Copies p g u x v) : CopiesSlot p (some g) w x v

inductive CopiesTemplate (p : Probability) : Option Gene → World → Option Gene → World → Prop where
  | absent {w : World} : CopiesTemplate p none w none w
  | tried {g : Gene} {x : Option Gene} {w v : World} (hg : Copies p g w x v) :
      CopiesTemplate p (some g) w x v

inductive CopiesAll (p : Probability) : List Gene → World → List Gene → World → Prop where
  | nil {w : World} : CopiesAll p [] w [] w
  | barred {g : Gene} {gs hs : List Gene} {w u v : World} (h : Pool.flip p w = .ok false u)
      (hgs : CopiesAll p gs u hs v) : CopiesAll p (g :: gs) w hs v
  | tried {g : Gene} {gs hs : List Gene} {x : Option Gene} {w u t v : World}
      (h : Pool.flip p w = .ok true u) (hg : Copies p g u x t) (hgs : CopiesAll p gs t hs v) :
      CopiesAll p (g :: gs) w (x.toList ++ hs) v

end

section
variable {p : Probability}

/-- A leaf is done with its supply. -/
theorem copies_leaf {g : Gene} (hg : g.isLeaf = true) {w v : World} {x : Option Gene}
    (h : (supply g.opcode >>= fun f => pure (f.map fun _ => g)) w = .ok x v) :
    Copies p g w x v := by
  obtain ⟨y, u, hy, h⟩ := of_bind_ok h
  cases h
  cases y with
  | none => exact .missed hy
  | some f => exact .leaf hg hy

/-- A leaf of which there is one only is the creature that was supplied. -/
theorem copies_sole {g : Gene} (hg : g.isLeaf = true)
    (hsole : ∀ f : Gene, f.opcode = g.opcode → f = g) {w v : World} {x : Option Gene}
    (h : supply g.opcode w = .ok x v) : Copies p g w x v := by
  cases x with
  | none => exact .missed h
  | some f =>
    obtain rfl := hsole f (of_supply_ok h).opcode_eq
    exact .leaf hg h

end

mutual

theorem copies_of_ok (p : Probability) : ∀ (g : Gene) (w v : World) (x : Option Gene),
    replicate p g w = .ok x v → Copies p g w x v
  | .branch q left right => by
    intro w v x h
    unfold replicate at h
    obtain ⟨y, u, hy, h⟩ := of_bind_ok h
    cases y with
    | none =>
      cases h
      exact .missed hy
    | some f =>
      obtain ⟨l, t, hl, h⟩ := of_bind_ok h
      obtain ⟨r, s, hr, h⟩ := of_bind_ok h
      cases h
      exact .branch hy (copiesSlot_of_ok p left _ _ _ hl) (copiesSlot_of_ok p right _ _ _ hr)
  | .chop _ | .copy _ | .mutate _ => by
    intro w v x h
    unfold replicate at h
    exact copies_leaf rfl h
  | .merge => by
    intro w v x h
    unfold replicate at h
    -- this opcode has neither children nor a probability, so the supplied gene is all of the copy
    exact copies_sole rfl (fun f hf => by cases f <;> first | rfl | cases hf) h
  | .put => by
    intro w v x h
    unfold replicate at h
    exact copies_sole rfl (fun f hf => by cases f <;> first | rfl | cases hf) h
  | .get template => by
    intro w v x h
    unfold replicate at h
    obtain ⟨y, u, hy, h⟩ := of_bind_ok h
    cases y with
    | none =>
      cases h
      exact .missed hy
    | some f =>
      obtain ⟨t, s, ht, h⟩ := of_bind_ok h
      cases h
      exact .get hy (copiesTemplate_of_ok p template _ _ _ ht)
  | .sequence genes => by
    intro w v x h
    unfold replicate at h
    obtain ⟨y, u, hy, h⟩ := of_bind_ok h
    cases y with
    | none =>
      cases h
      exact .missed hy
    | some f =>
      obtain ⟨hs, s, hgs, h⟩ := of_bind_ok h
      cases h
      exact .sequence hy (copiesAll_of_ok p genes _ _ _ hgs)

theorem copiesSlot_of_ok (p : Probability) : ∀ (slot : Option Gene) (w v : World) (x : Option Gene),
    replicateSlot p slot w = .ok x v → CopiesSlot p slot w x v
  | none => by
    intro w v x h
    unfold replicateSlot at h
    cases h
    exact .absent
  | some child => by
    intro w v x h
    unfold replicateSlot at h
    obtain ⟨yes, u, hu, h⟩ := of_bind_ok h
    cases yes with
    | false =>
      cases h
      exact .barred hu
    | true => exact .tried hu (copies_of_ok p child _ _ _ h)

theorem copiesTemplate_of_ok (p : Probability) : ∀ (template : Option Gene) (w v : World)
    (x : Option Gene), replicateTemplate p template w = .ok x v → CopiesTemplate p template w x v
  | none => by
    intro w v x h
    unfold replicateTemplate at h
    cases h
    exact .absent
  | some template => by
    intro w v x h
    unfold replicateTemplate at h
    exact .tried (copies_of_ok p template _ _ _ h)

theorem copiesAll_of_ok (p : Probability) : ∀ (items : List Gene) (w v : World) (hs : List Gene),
    replicateAll p items w = .ok hs v → CopiesAll p items w hs v
  | [] => by
    intro w v hs h
    unfold replicateAll at h
    cases h
    exact .nil
  | item :: items => by
    intro w v hs h
    unfold replicateAll at h
    obtain ⟨yes, u, hu, h⟩ := of_bind_ok h
    cases yes with
    | false => exact .barred hu (copiesAll_of_ok p items _ _ _ h)
    | true =>
      obtain ⟨y, t, hy, h⟩ := of_bind_ok h
      cases y with
      | none => exact .tried hu (copies_of_ok p item _ _ _ hy) (copiesAll_of_ok p items _ _ _ h)
      | some copy =>
        obtain ⟨rest, s, hrest, h⟩ := of_bind_ok h
        cases h
        exact .tried hu (copies_of_ok p item _ _ _ hy) (copiesAll_of_ok p items _ _ _ hrest)

end

/-! ## Lone creatures as raw material -/

/-- Only lone genes of the opcode are filed under a lone gene's species. -/
def Bare (p : Pool) : Prop :=
  ∀ o : Opcode, ∀ g ∈ p.filedUnder o.species, g.opcode = o ∧ g.size = 1

instance (p : Pool) : Decidable (Bare p) :=
  inferInstanceAs (Decidable (∀ o : Opcode, ∀ g ∈ p.filedUnder o.species, g.opcode = o ∧ g.size = 1))

/-- What the second pool lacks of the first: a creature of an opcode's own species for each
opcode of the list, and nothing else. -/
structure Spent (p q : Pool) (os : Multiset Opcode) : Prop where
  taken : ∀ o : Opcode, ∃ lost, p.filedUnder o.species = lost + q.filedUnder o.species ∧
    lost.card = os.count o
  others : ∀ id, (∀ o : Opcode, id ≠ o.species) → q.find? id = p.find? id

section
variable {p q r : Pool} {os os' : Multiset Opcode}

theorem Spent.refl (p : Pool) : Spent p p 0 :=
  ⟨fun _ => ⟨0, (zero_add _).symm, (Multiset.count_zero _).symm⟩, fun _ _ => rfl⟩

theorem Spent.of_eq (h : q = p) : Spent p q 0 := h ▸ .refl p

theorem Spent.trans (h₁ : Spent p q os) (h₂ : Spent q r os') : Spent p r (os + os') where
  taken o := by
    obtain ⟨l₁, hp, hcard⟩ := h₁.taken o
    obtain ⟨l₂, hq, hcard'⟩ := h₂.taken o
    refine ⟨l₁ + l₂, ?_, ?_⟩
    · rw [hp, hq, add_assoc]
    · rw [Multiset.card_add, hcard, hcard', Multiset.count_add]
  others id hid := (h₂.others id hid).trans (h₁.others id hid)

/-- A pool that has only lost creatures has still nothing else where the lone genes are. -/
theorem Spent.bare (h : Spent p q os) (hp : Bare p) : Bare q := by
  intro o g hg
  obtain ⟨lost, hl, -⟩ := h.taken o
  exact hp o g (hl ▸ Multiset.mem_add.mpr (.inr hg))

theorem spent_one {o : Opcode} {f : Gene} (h : Pool.Picked o.species p (some f) q) :
    Spent p q {o} := by
  cases h with
  | served hserved hothers =>
    refine ⟨fun o' => ?_, fun id hid => hothers id (hid o)⟩
    by_cases ho : o' = o
    · subst ho
      exact ⟨{f}, by rw [hserved, Multiset.singleton_add], by simp⟩
    · have hsame := hothers o'.species (species_injective.ne ho)
      refine ⟨0, ?_, ?_⟩
      · rw [zero_add, Pool.filedUnder_congr hsame]
      · rw [Multiset.card_zero, Multiset.count_singleton, if_neg ho]

end

section
variable {o : Opcode} {w v : World} {f : Gene}

theorem mem_of_request (h : Pool.request o.species w = .ok (some f) v) :
    f ∈ w.pool.filedUnder o.species := by
  rw [(Pool.of_request_picked (species_ne_any o) h).cons_of_some]
  exact Multiset.mem_cons_self f _

/-- Where there are only lone genes a supply never has to put a creature back. -/
theorem pool_eq_of_supply_none (h : supply o w = .ok none v) (hw : Bare w.pool) :
    v.pool = w.pool := by
  cases of_supply_ok h with
  | missed h => exact (Pool.of_request_picked (species_ne_any o) h).eq_of_none
  | returned h ho _ => exact absurd (hw o _ (mem_of_request h)).1 ho

theorem spent_of_supply_some (h : supply o w = .ok (some f) v) : Spent w.pool v.pool {o} := by
  cases of_supply_ok h with
  | fresh h _ => exact spent_one (Pool.of_request_picked (species_ne_any o) h)

theorem size_of_supply_some (h : supply o w = .ok (some f) v) (hw : Bare w.pool) :
    f.size = 1 := by
  cases of_supply_ok h with
  | fresh h _ => exact (hw o _ (mem_of_request h)).2

end

theorem itemsOf_eq_nil {g : Gene} (h : g.size = 1) : itemsOf g = [] := by
  cases g with
  | sequence genes =>
    cases genes with
    | nil => rfl
    | cons g gs =>
      have := g.size_pos
      simp only [Gene.size, Gene.sizeAll] at h
      omega
  | _ => rfl

/-! ## What a replica costs -/

section
variable {p : Probability}

theorem spent_flip {yes : Bool} {w v : World} (h : Pool.flip p w = .ok yes v) :
    Spent w.pool v.pool 0 := .of_eq ((Pool.calm_flip p).idle.pool_eq h)

mutual

/-- The replica has cost one lone gene for each of its genes. -/
theorem Copies.spent : ∀ {g : Gene} {w v : World} {x : Option Gene}, Copies p g w x v →
    Bare w.pool → Spent w.pool v.pool (opcodesSlot x)
  | _, _, _, _, .missed h, hw => .of_eq (pool_eq_of_supply_none h hw)
  | _, _, _, _, .leaf hg h, hw => by
    rw [opcodesSlot_some, opcodes_of_isLeaf hg]
    exact spent_of_supply_some h
  | _, _, _, _, .branch h hl hr, hw => by
    have hroot := spent_of_supply_some h
    have hleft := hroot.trans (hl.spent (hroot.bare hw))
    rw [opcodesSlot_some, opcodes_branch]
    exact hleft.trans (hr.spent (hleft.bare hw))
  | _, _, _, _, .get h ht, hw => by
    have hroot := spent_of_supply_some h
    rw [opcodesSlot_some, opcodes_get]
    exact hroot.trans (ht.spent (hroot.bare hw))
  | _, _, _, _, .sequence h hgs, hw => by
    have hroot := spent_of_supply_some h
    rw [opcodesSlot_some, opcodes_sequence, itemsOf_eq_nil (size_of_supply_some h hw)]
    exact hroot.trans (hgs.spent (hroot.bare hw))

theorem CopiesSlot.spent : ∀ {slot : Option Gene} {w v : World} {x : Option Gene},
    CopiesSlot p slot w x v → Bare w.pool → Spent w.pool v.pool (opcodesSlot x)
  | _, _, _, _, .absent, _ => .refl _
  | _, _, _, _, .barred h, _ => spent_flip h
  | _, _, _, _, .tried h hg, hw => by
    have htoss := spent_flip h
    rw [← zero_add (opcodesSlot _)]
    exact htoss.trans (hg.spent (htoss.bare hw))

theorem CopiesTemplate.spent : ∀ {slot : Option Gene} {w v : World} {x : Option Gene},
    CopiesTemplate p slot w x v → Bare w.pool → Spent w.pool v.pool (opcodesSlot x)
  | _, _, _, _, .absent, _ => .refl _
  | _, _, _, _, .tried hg, hw => hg.spent hw

theorem CopiesAll.spent : ∀ {gs hs : List Gene} {w v : World}, CopiesAll p gs w hs v →
    Bare w.pool → Spent w.pool v.pool (opcodesAll hs)
  | _, _, _, _, .nil, _ => .refl _
  | _, _, _, _, .barred h hgs, hw => by
    have htoss := spent_flip h
    rw [← zero_add (opcodesAll _)]
    exact htoss.trans (hgs.spent (htoss.bare hw))
  | _, _, _, _, .tried h hg hgs, hw => by
    have htoss := spent_flip h
    have hitem := htoss.trans (hg.spent (htoss.bare hw))
    rw [zero_add] at hitem
    rw [opcodesAll_append, opcodesAll_toList]
    exact hitem.trans (hgs.spent (hitem.bare hw))

end

mutual

/-- Where the raw material is lone genes, nothing of it shows in the replica. -/
theorem Copies.image : ∀ {g c : Gene} {w v : World}, Copies p g w (some c) v → Bare w.pool →
    Image g c
  | _, _, _, _, .leaf hg _, _ => .leaf hg
  | _, _, _, _, .branch h hl hr, hw => by
    have hroot := spent_of_supply_some h
    have hleft := hroot.trans (hl.spent (hroot.bare hw))
    exact .branch (hl.image (hroot.bare hw)) (hr.image (hleft.bare hw))
  | _, _, _, _, .get h ht, hw => .get (ht.image ((spent_of_supply_some h).bare hw))
  | _, _, _, _, .sequence h hgs, hw => by
    rw [itemsOf_eq_nil (size_of_supply_some h hw)]
    exact .sequence (hgs.image ((spent_of_supply_some h).bare hw))

theorem CopiesSlot.image : ∀ {slot x : Option Gene} {w v : World}, CopiesSlot p slot w x v →
    Bare w.pool → ImageSlot slot x
  | _, none, _, _, _, _ => .absent _
  | _, some _, _, _, .tried h hg, hw => .present (hg.image ((spent_flip h).bare hw))

theorem CopiesTemplate.image : ∀ {slot x : Option Gene} {w v : World},
    CopiesTemplate p slot w x v → Bare w.pool → ImageSlot slot x
  | _, none, _, _, _, _ => .absent _
  | _, some _, _, _, .tried hg, hw => .present (hg.image hw)

theorem CopiesAll.image : ∀ {gs hs : List Gene} {w v : World}, CopiesAll p gs w hs v →
    Bare w.pool → ImageAll gs hs
  | _, _, _, _, .nil, _ => .nil
  | _, _, _, _, .barred h hgs, hw => .skip (hgs.image ((spent_flip h).bare hw))
  | _, _, _, _, .tried (x := none) h hg hgs, hw =>
    have htoss := spent_flip h
    .skip (hgs.image ((htoss.trans (hg.spent (htoss.bare hw))).bare hw))
  | _, _, _, _, .tried (x := some _) h hg hgs, hw =>
    have htoss := spent_flip h
    .keep (hg.image (htoss.bare hw)) (hgs.image ((htoss.trans (hg.spent (htoss.bare hw))).bare hw))

end

end

/-- A replica that is made is an image of its source, and the pool has lost one lone gene for
every gene of it. If none is made, the pool holds what it held. -/
theorem image_of_replicate (p : Probability) (g : Gene) (w v : World) (x : Option Gene)
    (hw : Bare w.pool) (h : replicate p g w = .ok x v) :
    match x with
    | some c => Image g c ∧
      (∀ o : Opcode, ∃ lost, w.pool.filedUnder o.species = lost + v.pool.filedUnder o.species ∧
        lost.card = c.opcodes.count o) ∧
      ∀ id, (∀ o : Opcode, id ≠ o.species) → v.pool.find? id = w.pool.find? id
    | none => v.pool.buckets = w.pool.buckets := by
  have hcopies := copies_of_ok p g w v x h
  cases x with
  | some c =>
    have hspent := hcopies.spent hw
    exact ⟨hcopies.image hw, hspent.taken, hspent.others⟩
  | none =>
    cases hcopies with
    | missed h => rw [pool_eq_of_supply_none h hw]

def larder : Pool :=
  { buckets := [(Opcode.sequence.species, { members := #[.sequence []] }),
      (Opcode.merge.species, { members := #[.merge, .merge] })]
    temperature := .always
    species := { current := 2 }
    creatures := { current := 3 } }

theorem bare_larder : Bare larder := by decide +kernel

/-- The pool has no lone `Put` to spare, so the replica goes without this item. -/
theorem image_of_replicate_larder :
    let w : World := { pool := larder, stream := .seeded 7 }
    Bare w.pool ∧ ∃ c v, replicate .always (.sequence [.put, .merge]) w = .ok (some c) v ∧
      c.opcodes = {.sequence, .merge} ∧ Image (.sequence [.put, .merge]) c ∧
      ∃ lost, w.pool.filedUnder Opcode.merge.species =
        lost + v.pool.filedUnder Opcode.merge.species ∧ lost.card = 1 := by
  intro w
  have hopcodes : ((replicate .always (.sequence [.put, .merge])).run' w).map (·.map opcodes) =
      some (some {.sequence, .merge}) := by decide +kernel
  cases hv : replicate .always (.sequence [.put, .merge]) w with
  | error fault v =>
    rw [EStateM.run', EStateM.run, hv] at hopcodes
    cases hopcodes
  | ok x v =>
    rw [EStateM.run', EStateM.run, hv] at hopcodes
    obtain ⟨c, rfl, hc⟩ := Option.map_eq_some_iff.mp (Option.some.inj hopcodes)
    obtain ⟨himage, htaken, -⟩ := image_of_replicate .always _ w v (some c) bare_larder hv
    obtain ⟨lost, hlost, hcard⟩ := htaken .merge
    refine ⟨bare_larder, c, v, rfl, hc, himage, lost, hlost, hcard.trans ?_⟩
    rw [hc]
    decide

end Program

end Biotope
