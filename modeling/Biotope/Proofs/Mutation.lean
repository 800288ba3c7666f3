import Biotope.Proofs.Acts
import Biotope.Proofs.Draws
import Biotope.Proofs.Opcodes
import Biotope.Program.Mutation

/-!
# What mutation changes

Mutation redraws probabilities, swaps branch arms and moves items. It adds and removes
no gene, moves none to another level and leaves the chances of `Copy` genes alone. It only
tosses, so the pool is as it was.
-/

namespace Biotope

def Gene.chances (o : Opcode) (g : Gene) : Multiset Probability :=
  g.parts.filterMap fun part => if part.1 = o then part.2 else none

namespace Program

open Act

/-- The probability is as it was, or drawn anew from the half-open unit interval. -/
def Redrawn (p q : Probability) : Prop := q = p ∨ 0.0 ≤ q.value ∧ q.value < 1.0

def Moved (gs hs : List Gene) : Prop :=
  hs = gs ∨ ∃ (i : Fin gs.length) (j : Nat), j ≤ (gs.eraseIdx i).length ∧
    hs = (gs.eraseIdx i).insertIdx j (gs.get i)

mutual

inductive Mutated : Gene → Gene → Prop where
  | branch {p q : Probability} {l r l' r' : Option Gene} (hp : Redrawn p q)
      (hl : MutatedSlot l l') (hr : MutatedSlot r r') :
      Mutated (.branch p l r) (.branch q l' r')
  | swapped {p q : Probability} {l r l' r' : Option Gene} (hp : Redrawn p q)
      (hl : MutatedSlot l l') (hr : MutatedSlot r r') :
      Mutated (.branch p l r) (.branch q r' l')
  | chop {p q : Probability} (hp : Redrawn p q) : Mutated (.chop p) (.chop q)
  | copy (p : Probability) : Mutated (.copy p) (.copy p)
  | get {t t' : Option Gene} (h : MutatedSlot t t') : Mutated (.get t) (.get t')
  | merge : Mutated .merge .merge
  | mutate {p q : Probability} (hp : Redrawn p q) : Mutated (.mutate p) (.mutate q)
  | put : Mutated .put .put
  | sequence {gs hs ms : List Gene} (h : MutatedAll gs hs) (hm : Moved hs ms) :
      Mutated (.sequence gs) (.sequence ms)

inductive MutatedSlot : Option Gene → Option Gene → Prop where
  | none : MutatedSlot none none
  | some {g h : Gene} (hg : Mutated g h) : MutatedSlot (some g) (some h)

inductive MutatedAll : List Gene → List Gene → Prop where
  | nil : MutatedAll [] []
  | cons {g h : Gene} {gs hs : List Gene} (hg : Mutated g h) (hgs : MutatedAll gs hs) :
      MutatedAll (g :: gs) (h :: hs)

end

/-! ## No gene is added or removed -/

theorem Moved.perm {gs hs : List Gene} (h : Moved gs hs) : hs.Perm gs := by
  rcases h with rfl | ⟨i, j, hj, rfl⟩
  · exact .refl _
  · exact (List.perm_insertIdx (gs.get i) (gs.eraseIdx i) hj).trans (List.getElem_cons_eraseIdx_perm i.2)

inductive Retuned : Opcode × Option Probability → Opcode × Option Probability → Prop where
  | same (part : Opcode × Option Probability) : Retuned part part
  | redrawn {o : Opcode} (ho : o = .branch ∨ o = .chop ∨ o = .mutate) {p q : Probability}
      (hp : Redrawn p q) : Retuned (o, some p) (o, some q)

mutual

theorem Mutated.parts : ∀ {g h : Gene}, Mutated g h → Multiset.Rel Retuned g.parts h.parts
  | _, _, .branch hp hl hr => .cons (.redrawn (.inl rfl) hp) (hl.parts.add hr.parts)
  | _, _, .swapped hp hl hr => by
    rw [Gene.parts, Gene.parts, add_comm (Gene.partsSlot _)]
    exact .cons (.redrawn (.inl rfl) hp) (hr.parts.add hl.parts)
  | _, _, .chop hp => .cons (.redrawn (.inr (.inl rfl)) hp) .zero
  | _, _, .copy p => .cons (.same _) .zero
  | _, _, .get h => .cons (.same _) h.parts
  | _, _, .merge => .cons (.same _) .zero
  | _, _, .mutate hp => .cons (.redrawn (.inr (.inr rfl)) hp) .zero
  | _, _, .put => .cons (.same _) .zero
  | _, _, .sequence h hm => by
    rw [Gene.parts, Gene.parts, Gene.partsAll_perm hm.perm]
    exact .cons (.same _) h.parts

theorem MutatedSlot.parts : ∀ {s t : Option Gene}, MutatedSlot s t →
    Multiset.Rel Retuned (Gene.partsSlot s) (Gene.partsSlot t)
  | _, _, .none => .zero
  | _, _, .some h => h.parts

theorem MutatedAll.parts : ∀ {gs hs : List Gene}, MutatedAll gs hs →
    Multiset.Rel Retuned (Gene.partsAll gs) (Gene.partsAll hs)
  | _, _, .nil => .zero
  | _, _, .cons h hs => h.parts.add hs.parts

end

section
variable {g h : Gene} (hg : Mutated g h)
include hg

theorem Mutated.opcodes_eq : h.opcodes = g.opcodes := by
  have heq {a b : Opcode × Option Probability} (hab : Retuned a b) : a.1 = b.1 := by
    cases hab <;> rfl
  exact (Multiset.rel_eq.mp (Multiset.rel_map.mpr (hg.parts.mono fun _ _ _ _ => heq))).symm

theorem Mutated.size_eq : h.size = g.size := by
  rw [← Gene.card_opcodes, hg.opcodes_eq, Gene.card_opcodes]

theorem Mutated.opcode_eq : h.opcode = g.opcode := by
  cases hg <;> rfl

theorem Mutated.chances_copy : h.chances .copy = g.chances .copy := by
  have hparts := hg.parts
  unfold Gene.chances
  generalize g.parts = s, h.parts = t at hparts
  induction hparts with
  | zero => rfl
  | @cons a b s t hab _ ih =>
    cases hab with
    | same => rw [Multiset.filterMap_cons, Multiset.filterMap_cons, ih]
    | @redrawn o ho p q _ =>
      have hcopy : o ≠ .copy := by
        rintro rfl
        simp at ho
      simp only [Multiset.filterMap_cons, if_neg hcopy, Option.map_none, Option.getD_none, ih]

end

/-! ## No gene leaves its level -/

mutual

theorem Mutated.depth_eq : ∀ {g h : Gene}, Mutated g h → h.depth = g.depth
  | _, _, .branch _ hl hr => by rw [Gene.depth, Gene.depth, hl.depth_eq, hr.depth_eq]
  | _, _, .swapped _ hl hr => by
    rw [Gene.depth, Gene.depth, hl.depth_eq, hr.depth_eq, max_comm]
  | _, _, .chop _ => rfl
  | _, _, .copy _ => rfl
  | _, _, .get h => by rw [Gene.depth, Gene.depth, h.depth_eq]
  | _, _, .merge => rfl
  | _, _, .mutate _ => rfl
  | _, _, .put => rfl
  | _, _, .sequence h hm => by
    rw [Gene.depth, Gene.depth, Gene.depthAll_perm hm.perm, h.depth_eq]

theorem MutatedSlot.depth_eq : ∀ {s t : Option Gene}, MutatedSlot s t →
    Gene.depthSlot t = Gene.depthSlot s
  | _, _, .none => rfl
  | _, _, .some h => h.depth_eq

theorem MutatedAll.depth_eq : ∀ {gs hs : List Gene}, MutatedAll gs hs →
    Gene.depthAll hs = Gene.depthAll gs
  | _, _, .nil => rfl
  | _, _, .cons h hs => by rw [Gene.depthAll, Gene.depthAll, h.depth_eq, hs.depth_eq]

end

/-! ## Tossing only -/

theorem calm_redraw (p q : Probability) : Calm (redraw p q) (Redrawn q) := by
  have hsample : Calm (draw Probability.sample) (Redrawn q) := by
    intro w
    have hlt := Stream.unit_lt_one w.stream
    rw [← Probability.value_sample] at hlt
    exact ⟨_, _, rfl, ⟨rfl, rfl, frame_stream w _⟩,
      .inr ⟨(Probability.sample w.stream).1.inUnit.1, hlt⟩⟩
  unfold redraw
  exact calm_bind (Pool.calm_flip p) fun _ _ => calm_ite hsample (calm_pure (.inl rfl))

theorem calm_relocate (p : Probability) (genes : List Gene) :
    Calm (relocate p genes) (Moved genes) := by
  unfold relocate
  split
  · refine calm_bind (Pool.calm_flip p) fun _ _ => calm_ite ?_ (calm_pure (.inl rfl))
    refine calm_bind (calm_draw _) fun i _ => calm_bind (calm_draw _) fun j _ => calm_pure ?_
    exact .inr ⟨i, j, Nat.lt_succ_iff.mp j.2, rfl⟩
  · exact calm_pure (.inl rfl)

mutual

theorem calm_mutate (p : Probability) : ∀ g, Calm (mutate p g) (Mutated g)
  | .branch q left right => by
    unfold mutate
    refine calm_bind (calm_mutateSlot p left) fun l hl => ?_
    refine calm_bind (calm_mutateSlot p right) fun r hr => ?_
    refine calm_bind (calm_redraw p q) fun _ hq => calm_bind (Pool.calm_flip p) fun _ _ => ?_
    exact calm_ite (calm_pure (.swapped hq hl hr)) (calm_pure (.branch hq hl hr))
  | .chop q => by
    unfold mutate
    exact calm_bind (calm_redraw p q) fun _ hq => calm_pure (.chop hq)
  | .copy q => by
    unfold mutate
    exact calm_pure (.copy q)
  | .get template => by
    unfold mutate
    exact calm_bind (calm_mutateSlot p template) fun _ ht => calm_pure (.get ht)
  | .merge => by
    unfold mutate
    exact calm_pure .merge
  | .mutate q => by
    unfold mutate
    exact calm_bind (calm_redraw p q) fun _ hq => calm_pure (.mutate hq)
  | .put => by
    unfold mutate
    exact calm_pure .put
  | .sequence genes => by
    unfold mutate
    refine calm_bind (calm_mutateAll p genes) fun gs hgs => ?_
    exact calm_bind (calm_relocate p gs) fun _ hm => calm_pure (.sequence hgs hm)

theorem calm_mutateSlot (p : Probability) : ∀ slot, Calm (mutateSlot p slot) (MutatedSlot slot)
  | none => by
    unfold mutateSlot
    exact calm_pure .none
  | some child => by
    unfold mutateSlot
    exact calm_bind (calm_mutate p child) fun _ h => calm_pure (.some h)

theorem calm_mutateAll (p : Probability) : ∀ items, Calm (mutateAll p items) (MutatedAll items)
  | [] => by
    unfold mutateAll
    exact calm_pure .nil
  | item :: items => by
    unfold mutateAll
    refine calm_bind (calm_mutate p item) fun _ h => ?_
    exact calm_bind (calm_mutateAll p items) fun _ hs => calm_pure (.cons h hs)

end

/-- Mutation is always done and leaves the pool as it is. What it ends with is the creature with some
arms swapped, at most one item of each sequence moved and some chances redrawn, so with the same
genes on as many levels. -/
theorem mutate_rearranges (p : Probability) (g : Gene) (w : World) :
    ∃ h v, mutate p g w = .ok h v ∧ Mutated g h ∧ h.size = g.size ∧ h.depth = g.depth ∧
      h.opcode = g.opcode ∧ h.opcodes = g.opcodes ∧ h.chances .copy = g.chances .copy ∧
      v.pool = w.pool := by
  obtain ⟨h, v, hv, hundisturbed, hmutated⟩ := calm_mutate p g w
  exact ⟨h, v, hv, hmutated, hmutated.size_eq, hmutated.depth_eq, hmutated.opcode_eq,
    hmutated.opcodes_eq, hmutated.chances_copy, hundisturbed.pool⟩

end Program

end Biotope
