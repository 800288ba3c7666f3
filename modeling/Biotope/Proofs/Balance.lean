import Biotope.Proofs.Grafting
import Biotope.Proofs.Mutation
import Biotope.Proofs.Soundness

/-!
# Genes in circulation

Genes are in the pool, on the stack, or in the hand of what is running. An act is
balanced if it always ends, ends in a sound pool and leaves as many genes of each opcode
in these three places as it found. Balanced acts run one after another are balanced, and
whatever else is held in the hand does not matter to them.
-/

namespace Biotope

open Act Gene

namespace Pool

def opcodes (p : Pool) : Multiset Opcode := (p.held.map Gene.opcodes).sum

theorem opcodes_of_cons {p q : Pool} {g : Gene} (h : p.held = g ::ₘ q.held) :
    p.opcodes = g.opcodes + q.opcodes := by
  rw [opcodes, opcodes, h, Multiset.map_cons, Multiset.sum_cons]

theorem card_held_le (p : Pool) : p.held.card ≤ p.opcodes.card := by
  unfold opcodes
  induction p.held using Multiset.induction_on with
  | empty => simp
  | cons g s ih =>
    have := g.size_pos
    simp only [Multiset.card_cons, Multiset.map_cons, Multiset.sum_cons, Multiset.card_add,
      card_opcodes]
    omega

end Pool

def World.opcodes (w : World) : Multiset Opcode := w.pool.opcodes + opcodesAll w.stack

/-- The creature is a lone gene or not of the species of one. -/
def Plain (g : Gene) : Prop := 2 ≤ g.size → ∀ o : Opcode, g.species ≠ o.species

instance (g : Gene) : Decidable (Plain g) :=
  inferInstanceAs (Decidable (2 ≤ g.size → ∀ o : Opcode, g.species ≠ o.species))

/-! ## From one world to another -/

/-- Nothing was lost on the way from one world to another, with `a` in the hand before and
`b` after. Copying loses the children of a creature that has the species of a lone gene;
without such a creature nothing at all was lost. -/
structure Balance (w : World) (a : Multiset Opcode) (v : World) (b : Multiset Opcode) :
    Prop where
  sound : v.pool.Sound
  drill : v.drill = none
  genes : v.pool.genes = w.pool.genes
  chance : w.service = .chance → v.service = .chance
  kept : ∃ new, v.filed = new ++ w.filed ∧ (∀ g ∈ v.pool.held, g ∈ w.pool.held ∨ g ∈ new) ∧
    v.opcodes + b ≤ w.opcodes + a ∧ ((∀ g ∈ w.pool.held, Plain g) → (∀ g ∈ new, Plain g) →
      v.opcodes + b = w.opcodes + a)

structure Ready (w : World) (a : Multiset Opcode) : Prop where
  sound : w.pool.Sound
  drill : w.drill = none
  fits : (w.opcodes + a).card < 2 ^ 63 - 1

section
variable {w u v : World} {a b c k : Multiset Opcode}

theorem Ready.held_lt (h : Ready w a) : w.pool.held.card + a.card < 2 ^ 63 - 1 := by
  have h1 := h.fits
  have h2 := w.pool.card_held_le
  simp only [World.opcodes, Multiset.card_add] at h1
  omega

theorem Ready.weaken (h : Ready w (a + k)) : Ready w a := by
  refine ⟨h.sound, h.drill, lt_of_le_of_lt (Multiset.card_le_card ?_) h.fits⟩
  rw [← add_assoc]
  exact Multiset.le_add_right _ _

theorem Ready.zero (h : Ready w a) : Ready w 0 := by
  rw [← zero_add a] at h
  exact h.weaken

theorem Balance.refl (h : Ready w a) : Balance w a w a :=
  ⟨h.sound, h.drill, rfl, id, [], rfl, fun _ hg => .inl hg, le_refl _, fun _ _ => rfl⟩

theorem Balance.ready (h : Balance w a v b) (hw : Ready w a) : Ready v b := by
  obtain ⟨new, -, -, hle, -⟩ := h.kept
  exact ⟨h.sound, h.drill, lt_of_le_of_lt (Multiset.card_le_card hle) hw.fits⟩

theorem Balance.trans (h₁ : Balance w a u b) (h₂ : Balance u b v c) : Balance w a v c := by
  obtain ⟨new₁, hf₁, hm₁, hle₁, heq₁⟩ := h₁.kept
  obtain ⟨new₂, hf₂, hm₂, hle₂, heq₂⟩ := h₂.kept
  refine ⟨h₂.sound, h₂.drill, h₂.genes.trans h₁.genes, h₂.chance ∘ h₁.chance, new₂ ++ new₁, ?_,
    fun g hg => ?_, hle₂.trans hle₁, fun hw hnew => ?_⟩
  · rw [hf₂, hf₁, List.append_assoc]
  · rcases hm₂ g hg with hu | hn
    · exact (hm₁ g hu).imp id (List.mem_append_right _)
    · exact .inr (List.mem_append_left _ hn)
  · have hnew₁ : ∀ g ∈ new₁, Plain g := fun g hg => hnew g (List.mem_append_right _ hg)
    have hu : ∀ g ∈ u.pool.held, Plain g := fun g hg => (hm₁ g hg).elim (hw g) (hnew₁ g)
    rw [heq₂ hu fun g hg => hnew g (List.mem_append_left _ hg), heq₁ hw hnew₁]

theorem Balance.frame (h : Balance w a v b) (k : Multiset Opcode) :
    Balance w (a + k) v (b + k) := by
  obtain ⟨new, hf, hm, hle, heq⟩ := h.kept
  refine ⟨h.sound, h.drill, h.genes, h.chance, new, hf, hm, ?_, fun hw hnew => ?_⟩
  · rw [← add_assoc, ← add_assoc]
    exact add_le_add_left hle k
  · rw [← add_assoc, ← add_assoc, heq hw hnew]

/-- Part of the hand may be dropped if it is only part of creatures that are not plain. -/
theorem Balance.drop (h : Balance w a v b) (hle : c ≤ b)
    (heq : (∀ g ∈ w.pool.held, Plain g) → c = b) : Balance w a v c := by
  obtain ⟨new, hf, hm, hle', heq'⟩ := h.kept
  refine ⟨h.sound, h.drill, h.genes, h.chance, new, hf, hm, (add_le_add_right hle _).trans hle',
    fun hw hnew => ?_⟩
  rw [heq hw, heq' hw hnew]

theorem Balance.recount (h : Balance w a v b) (γ : Gauge) :
    Balance w a { v with generations := γ } b :=
  ⟨h.sound, h.drill, h.genes, h.chance, h.kept⟩

theorem Act.Undisturbed.balance (h : Undisturbed w v) (hw : Ready w a) : Balance w a v a := by
  have hopcodes : v.opcodes = w.opcodes := by
    rw [World.opcodes, h.pool, h.frame.stack, World.opcodes]
  refine ⟨by rw [h.pool]; exact hw.sound, h.frame.drill.trans hw.drill, by rw [h.pool],
    h.frame.chance, [], h.filed, fun g hg => .inl (by rwa [h.pool] at hg), ?_, fun _ _ => ?_⟩
  · rw [hopcodes]
  · rw [hopcodes]

end

/-! ## Balanced acts -/

/-- With `a` in the hand the act is always done, and the hand then holds what `b` says. -/
def Balanced {α : Type} (m : Act α) (a : Multiset Opcode) (b : α → Multiset Opcode) : Prop :=
  ∀ w, Ready w a → ∃ x v, m w = .ok x v ∧ Balance w a v (b x) ∧ v.generations = w.generations

section
variable {α β : Type} {m : Act α} {a : Multiset Opcode} {b : α → Multiset Opcode}

theorem balanced_pure {x : α} (h : b x = a) : Balanced (pure x) a b := by
  subst h
  exact fun w hw => ⟨x, w, rfl, .refl hw, rfl⟩

theorem Balanced.frame (h : Balanced m a b) (k : Multiset Opcode) :
    Balanced m (a + k) fun x => b x + k := by
  intro w hw
  obtain ⟨x, v, hv, hb, hg⟩ := h w hw.weaken
  exact ⟨x, v, hv, hb.frame k, hg⟩

/-- One act after another, the first with `k` left in the hand. -/
theorem balanced_bind {f : α → Act β} {c : β → Multiset Opcode} {a' : Multiset Opcode}
    (k : Multiset Opcode) (ha : a' = a + k) (hm : Balanced m a b)
    (hf : ∀ x, Balanced (f x) (b x + k) c) : Balanced (m >>= f) a' c := by
  subst ha
  intro w hw
  obtain ⟨x, u, hu, h₁, hg₁⟩ := hm.frame k w hw
  obtain ⟨y, v, hv, h₂, hg₂⟩ := hf x u (h₁.ready hw)
  exact ⟨y, v, (bind_ok hu).trans hv, h₁.trans h₂, hg₂.trans hg₁⟩

theorem balanced_then {f : α → Act β} {c : β → Multiset Opcode} (hm : Balanced m a b)
    (hf : ∀ x, Balanced (f x) (b x) c) : Balanced (m >>= f) a c :=
  balanced_bind 0 (add_zero a).symm hm fun x => (add_zero (b x)).symm ▸ hf x

theorem balanced_ite {c : Prop} [Decidable c] {n : Act α} (hm : Balanced m a b)
    (hn : Balanced n a b) : Balanced (if c then m else n) a b := by
  split
  · exact hm
  · exact hn

theorem balanced_calm {Q : α → Prop} {f : α → Act β} {c : β → Multiset Opcode}
    (hm : Calm m Q) (hf : ∀ x, Q x → Balanced (f x) a c) : Balanced (m >>= f) a c := by
  intro w hw
  obtain ⟨x, u, hu, hd, hq⟩ := hm w
  have h₁ := hd.balance hw
  obtain ⟨y, v, hv, h₂, hg⟩ := hf x hq u (h₁.ready hw)
  exact ⟨y, v, (bind_ok hu).trans hv, h₁.trans h₂, hg.trans hd.frame.generations⟩

end

/-! ## The stack and the pool -/

theorem balanced_push (g : Gene) : Balanced (push g) g.opcodes fun _ => 0 := by
  intro w hw
  refine ⟨(), { w with stack := g :: w.stack }, rfl, ⟨hw.sound, hw.drill, rfl, id, [], rfl,
    fun _ hg => .inl hg, ?_, fun _ _ => ?_⟩, rfl⟩ <;>
  · simp only [World.opcodes, opcodesAll_cons, add_zero]
    rw [add_assoc, add_comm g.opcodes]

theorem balance_pop {w : World} {g : Gene} {gs : List Gene} {a : Multiset Opcode}
    (hs : w.stack = g :: gs) (hw : Ready w a) :
    Balance w 0 { w with stack := gs } g.opcodes := by
  have hopcodes : { w with stack := gs }.opcodes + g.opcodes = w.opcodes + 0 := by
    simp only [World.opcodes, hs, opcodesAll_cons, add_zero]
    rw [add_assoc, add_comm g.opcodes]
  exact ⟨hw.sound, hw.drill, rfl, id, [], rfl, fun _ hg => .inl hg, hopcodes.le,
    fun _ _ => hopcodes⟩

theorem balanced_pop : Balanced pop 0 opcodesSlot := by
  intro w hw
  cases hs : w.stack with
  | nil => exact ⟨none, w, by simp only [pop, hs], .refl hw, rfl⟩
  | cons g gs => exact ⟨some g, _, by simp only [pop, hs], balance_pop hs hw, rfl⟩

theorem balanced_put (g : Gene) : Balanced (Pool.put g) g.opcodes fun _ => 0 := by
  intro w hw
  have hlt := hw.held_lt
  have hpos := g.size_pos
  rw [card_opcodes] at hlt
  obtain ⟨u, v, hv⟩ := Pool.put_done hw.sound.tallied (by omega) g
  obtain ⟨hg, hfr, hf⟩ := Pool.of_put_ok hw.sound.filed hv
  have hopcodes : v.opcodes + 0 = w.opcodes + g.opcodes := by
    rw [World.opcodes, World.opcodes, hfr.stack, Pool.opcodes_of_cons hg.held, add_zero,
      add_comm g.opcodes, add_right_comm]
  refine ⟨u, v, hv, ⟨hg.sound hw.sound, hfr.drill.trans hw.drill, hg.genes, hfr.chance, [g], hf,
    fun h hh => ?_, hopcodes.le, fun _ _ => hopcodes⟩, hfr.generations⟩
  rw [hg.held] at hh
  rcases Multiset.mem_cons.mp hh with rfl | hh
  · exact .inr (List.mem_singleton_self _)
  · exact .inl hh

theorem Pool.Lost.balance {w v : World} {g : Gene} {a : Multiset Opcode} (h : Lost w.pool g v.pool)
    (hfr : Frame w v) (hf : v.filed = w.filed) (hw : Ready w a) : Balance w 0 v g.opcodes := by
  have hopcodes : v.opcodes + g.opcodes = w.opcodes + 0 := by
    rw [World.opcodes, World.opcodes, hfr.stack, Pool.opcodes_of_cons h.held, add_zero,
      add_comm g.opcodes, add_right_comm]
  refine ⟨h.sound hw.sound, hfr.drill.trans hw.drill, h.genes, hfr.chance, [], hf,
    fun c hc => .inl ?_, hopcodes.le, fun _ _ => hopcodes⟩
  rw [h.held]
  exact Multiset.mem_cons_of_mem hc

inductive Requested (id : SpeciesId) (w : World) : Option Gene → World → Prop where
  | none {v : World} (h : Undisturbed w v) : Requested id w none v
  | some {g : Gene} {v : World} (hg : g ∈ w.pool.held) (hid : id ≠ .any → g.species = id)
      (hb : Balance w 0 v g.opcodes) (hs : v.generations = w.generations) :
      Requested id w (some g) v

theorem rehearse_none {w : World} (h : w.drill = none) : Pool.rehearse w = .ok () w := by
  refine (bind_ok rfl).trans ?_
  simp only [h]
  rfl

theorem request_done (id : SpeciesId) {w : World} {a : Multiset Opcode} (hw : Ready w a) :
    ∃ x v, Pool.request id w = .ok x v ∧ Requested id w x v := by
  obtain ⟨y, u, hy, hd, hid⟩ := Pool.calm_assign id w
  unfold Pool.request
  rw [bind_ok hy]
  cases y with
  | none => exact ⟨none, u, rfl, .none hd⟩
  | some i =>
    have hu := (hd.balance hw).ready hw
    obtain ⟨x, v, hv⟩ := Pool.take_done hu.sound.tallied i
    obtain ⟨ht, hfr, hf⟩ := Pool.of_take_ok hu.sound.filed hv
    refine ⟨x, v, (bind_ok (rehearse_none hu.drill)).trans hv, ?_⟩
    generalize hp : v.pool = q at ht
    cases ht with
    | none _ => exact .none (hd.trans ⟨hp, hf, hfr⟩)
    | @some g _ ha hl =>
      subst hp
      refine .some ?_ (fun hne => ?_) ((hd.balance hw.zero).trans (hl.balance hfr hf hu)) ?_
      · rw [← hd.pool, hl.held]
        exact Multiset.mem_cons_self _ _
      · obtain rfl : i = id := Option.some.inj (hid hne)
        exact ha.resolve_left hne
      · exact hfr.generations.trans hd.frame.generations

theorem balanced_request (id : SpeciesId) : Balanced (Pool.request id) 0 opcodesSlot := by
  intro w hw
  obtain ⟨x, v, hv, hr⟩ := request_done id hw
  refine ⟨x, v, hv, ?_⟩
  cases hr with
  | none h => exact ⟨h.balance hw, h.frame.generations⟩
  | some _ _ hb hs => exact ⟨hb, hs⟩

end Biotope
