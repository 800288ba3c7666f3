import Mathlib
import Biotope.Gene.Shape

/-!
# The genes of a creature

A creature is made of parts: opcodes, most of them with a probability. Operations on
creatures move parts about, so what they do is told by counting parts.
-/

namespace Biotope.Gene

mutual

def parts : Gene → Multiset (Opcode × Option Probability)
  | branch p left right => (.branch, some p) ::ₘ (partsSlot left + partsSlot right)
  | chop p => {(.chop, some p)}
  | copy p => {(.copy, some p)}
  | get template => (.get, none) ::ₘ partsSlot template
  | merge => {(.merge, none)}
  | mutate p => {(.mutate, some p)}
  | put => {(.put, none)}
  | sequence genes => (.sequence, none) ::ₘ partsAll genes

def partsSlot : Option Gene → Multiset (Opcode × Option Probability)
  | none => 0
  | some g => parts g

def partsAll : List Gene → Multiset (Opcode × Option Probability)
  | [] => 0
  | g :: gs => parts g + partsAll gs

end

def opcodes (g : Gene) : Multiset Opcode := g.parts.map Prod.fst

def opcodesSlot (slot : Option Gene) : Multiset Opcode := (partsSlot slot).map Prod.fst

def opcodesAll (genes : List Gene) : Multiset Opcode := (partsAll genes).map Prod.fst

/-! ## Opcodes of each kind of gene -/

@[simp]
theorem opcodes_branch (p : Probability) (left right : Option Gene) :
    (branch p left right).opcodes = {.branch} + opcodesSlot left + opcodesSlot right := by
  show ((Opcode.branch, some p) ::ₘ (partsSlot left + partsSlot right)).map Prod.fst = _
  rw [Multiset.map_cons, Multiset.map_add, ← Multiset.singleton_add, add_assoc]
  rfl

@[simp]
theorem opcodes_chop (p : Probability) : (chop p).opcodes = {.chop} := rfl

@[simp]
theorem opcodes_copy (p : Probability) : (copy p).opcodes = {.copy} := rfl

@[simp]
theorem opcodes_get (template : Option Gene) :
    (get template).opcodes = {.get} + opcodesSlot template := by
  show ((Opcode.get, none) ::ₘ partsSlot template).map Prod.fst = _
  rw [Multiset.map_cons, ← Multiset.singleton_add]
  rfl

@[simp]
theorem opcodes_merge : merge.opcodes = {.merge} := rfl

@[simp]
theorem opcodes_mutate (p : Probability) : (mutate p).opcodes = {.mutate} := rfl

@[simp]
theorem opcodes_put : put.opcodes = {.put} := rfl

@[simp]
theorem opcodes_sequence (genes : List Gene) :
    (sequence genes).opcodes = {.sequence} + opcodesAll genes := by
  show ((Opcode.sequence, none) ::ₘ partsAll genes).map Prod.fst = _
  rw [Multiset.map_cons, ← Multiset.singleton_add]
  rfl

@[simp]
theorem opcodesSlot_none : opcodesSlot none = 0 := rfl

@[simp]
theorem opcodesSlot_some (g : Gene) : opcodesSlot (some g) = g.opcodes := rfl

@[simp]
theorem opcodesAll_nil : opcodesAll [] = 0 := rfl

@[simp]
theorem opcodesAll_cons (g : Gene) (gs : List Gene) :
    opcodesAll (g :: gs) = g.opcodes + opcodesAll gs :=
  Multiset.map_add Prod.fst g.parts (partsAll gs)

/-! ## Counting -/

theorem partsAll_eq_sum (gs : List Gene) : partsAll gs = (gs.map parts).sum := by
  induction gs with
  | nil => rfl
  | cons g gs ih => simp [partsAll, ih]

theorem partsAll_append (gs hs : List Gene) : partsAll (gs ++ hs) = partsAll gs + partsAll hs := by
  simp [partsAll_eq_sum]

@[simp]
theorem opcodesAll_append (gs hs : List Gene) :
    opcodesAll (gs ++ hs) = opcodesAll gs + opcodesAll hs := by
  simp [opcodesAll, partsAll_append]

theorem partsAll_perm {gs hs : List Gene} (h : gs.Perm hs) : partsAll gs = partsAll hs := by
  rw [partsAll_eq_sum, partsAll_eq_sum]
  exact (h.map parts).sum_eq

theorem opcodesAll_toList (slot : Option Gene) : opcodesAll slot.toList = opcodesSlot slot := by
  cases slot with
  | none => rfl
  | some g => rw [Option.toList_some, opcodesAll_cons, opcodesAll_nil, add_zero, opcodesSlot_some]

mutual

theorem card_parts : ∀ g : Gene, g.parts.card = g.size
  | branch _ left right => by
    rw [parts, size, Multiset.card_cons, Multiset.card_add, card_partsSlot left,
      card_partsSlot right]
    omega
  | get template => by
    rw [parts, size, Multiset.card_cons, card_partsSlot template]
    omega
  | sequence genes => by
    rw [parts, size, Multiset.card_cons, card_partsAll genes]
    omega
  | chop _ | copy _ | merge | mutate _ | put => by
    rw [parts, size, Multiset.card_singleton]

theorem card_partsSlot : ∀ slot : Option Gene, (partsSlot slot).card = sizeSlot slot
  | none => rfl
  | some g => by rw [partsSlot, sizeSlot, card_parts g]

theorem card_partsAll : ∀ gs : List Gene, (partsAll gs).card = sizeAll gs
  | [] => rfl
  | g :: gs => by rw [partsAll, sizeAll, Multiset.card_add, card_parts g, card_partsAll gs]

end

@[simp]
theorem card_opcodes (g : Gene) : g.opcodes.card = g.size := by
  rw [opcodes, Multiset.card_map, card_parts]

@[simp]
theorem card_opcodesAll (gs : List Gene) : (opcodesAll gs).card = sizeAll gs := by
  rw [opcodesAll, Multiset.card_map, card_partsAll]

theorem opcode_mem_opcodes (g : Gene) : g.opcode ∈ g.opcodes := by
  cases g <;> simp [opcode]

theorem size_pos (g : Gene) : 0 < g.size := by
  rw [← card_opcodes]
  exact Multiset.card_pos_iff_exists_mem.mpr ⟨_, g.opcode_mem_opcodes⟩

theorem opcodes_of_size_lt {g : Gene} (h : g.size < 2) : g.opcodes = {g.opcode} := by
  obtain ⟨o, ho⟩ := Multiset.card_eq_one.mp (show g.opcodes.card = 1 by
    rw [card_opcodes]
    have := g.size_pos
    omega)
  have hm := g.opcode_mem_opcodes
  rw [ho, Multiset.mem_singleton] at hm
  rw [ho, hm]

/-! ## Leaves -/

def isLeaf : Gene → Bool
  | branch .. | get _ | sequence _ => false
  | chop _ | copy _ | merge | mutate _ | put => true

theorem opcodes_of_isLeaf : ∀ {g : Gene}, g.isLeaf = true → g.opcodes = {g.opcode}
  | .chop _, _ | .copy _, _ | .merge, _ | .mutate _, _ | .put, _ => rfl

theorem isLeaf_of_ne {g : Gene} (hb : ∀ p left right, g ≠ .branch p left right)
    (hg : ∀ template, g ≠ .get template) (hs : ∀ genes, g ≠ .sequence genes) :
    g.isLeaf = true := by
  cases g with
  | branch p left right => exact absurd rfl (hb p left right)
  | get template => exact absurd rfl (hg template)
  | sequence genes => exact absurd rfl (hs genes)
  | chop | copy | merge | mutate | put => rfl

/-! ## Levels -/

mutual

theorem depth_le_size : ∀ g : Gene, g.depth ≤ g.size
  | branch _ left right => by
    have := depthSlot_le_size left
    have := depthSlot_le_size right
    simp only [depth, size]
    omega
  | get template => Nat.add_le_add_left (depthSlot_le_size template) 1
  | sequence genes => Nat.add_le_add_left (depthAll_le_size genes) 1
  | chop _ | copy _ | merge | mutate _ | put => le_rfl

theorem depthSlot_le_size : ∀ slot : Option Gene, depthSlot slot ≤ sizeSlot slot
  | none => le_rfl
  | some g => depth_le_size g

theorem depthAll_le_size : ∀ genes : List Gene, depthAll genes ≤ sizeAll genes
  | [] => le_rfl
  | g :: gs => by
    have := depth_le_size g
    have := depthAll_le_size gs
    simp only [depthAll, sizeAll]
    omega

end

theorem depthAll_perm {gs hs : List Gene} (h : gs.Perm hs) : depthAll gs = depthAll hs := by
  induction h with
  | nil => rfl
  | cons g _ ih => rw [depthAll, depthAll, ih]
  | swap g h gs => simp only [depthAll, max_left_comm]
  | trans _ _ ih₁ ih₂ => exact ih₁.trans ih₂

end Biotope.Gene

namespace Biotope.Opcode

theorem mem_all (o : Opcode) : o ∈ all := by cases o <;> decide

instance : Fintype Opcode := ⟨⟨all, by decide⟩, mem_all⟩

end Biotope.Opcode
