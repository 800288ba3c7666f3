import Biotope.Gene.Basic

/-!
# Grafting

Grafting moves creatures from a stack into the holes of another creature. An empty
branch arm and an empty template each take one, a sequence takes one at a random
place. The tree that is walked grows on the way, but only by what the stack loses, so
the walk ends.
-/

namespace Biotope.Program

/-- The outcome of a graft: what has grown, and what is left of a stack of at most
`bound` creatures. -/
structure Grafted (α : Type) (bound : Nat) where
  value : α
  stack : List Gene
  stream : Stream
  length_le : stack.length ≤ bound

/-- A hole takes the top of the stack. -/
def fill (slot : Option Gene) (stack : List Gene) : Option Gene × List Gene :=
  match slot, stack with
  | none, top :: rest => (some top, rest)
  | slot, stack => (slot, stack)

/-- Filling leaves a slot as it was or takes one creature. -/
theorem fill_cases (slot : Option Gene) (stack : List Gene) :
    (fill slot stack).1 = slot ∨ (fill slot stack).2.length < stack.length := by
  unfold fill
  split <;> simp

theorem fill_length_le (slot : Option Gene) (stack : List Gene) :
    (fill slot stack).2.length ≤ stack.length := by
  unfold fill
  split <;> simp

theorem lex_of_le {a b c d : Nat} (hab : a ≤ b) (hcd : c < d) :
    Prod.Lex (· < ·) (· < ·) (a, c) (b, d) := by
  rcases Nat.lt_or_eq_of_le hab with h | rfl
  · exact Prod.Lex.left _ _ h
  · exact Prod.Lex.right _ hcd

mutual

/-- Fills the holes of a creature in the order of the walk, while the stack lasts. -/
def graft (g : Gene) (stack : List Gene) (s : Stream) : Grafted Gene stack.length :=
  match g with
  | .branch p left right =>
    let a := fill left stack
    let b := fill right a.2
    have hle : b.2.length ≤ stack.length :=
      Nat.le_trans (fill_length_le right a.2) (fill_length_le left stack)
    let l := graftSlot a.1 b.2 s
    let r := graftSlot b.1 l.stack l.stream
    ⟨.branch p l.value r.value, r.stack, r.stream,
      Nat.le_trans r.length_le (Nat.le_trans l.length_le hle)⟩
  | .get template =>
    let a := fill template stack
    let t := graftSlot a.1 a.2 s
    ⟨.get t.value, t.stack, t.stream, Nat.le_trans t.length_le (fill_length_le template stack)⟩
  | .sequence genes =>
    match stack with
    | [] => ⟨.sequence genes, [], s, Nat.le_refl _⟩
    | top :: rest =>
      let place := Stream.below (genes.length + 1) (Nat.succ_pos _) s
      let t := graftAll (genes.insertIdx place.1 top) rest place.2
      ⟨.sequence t.value, t.stack, t.stream, Nat.le_succ_of_le t.length_le⟩
  | g => ⟨g, stack, s, Nat.le_refl _⟩
termination_by (stack.length, sizeOf g)
decreasing_by
  · rcases fill_cases left stack with ha | ha
    · refine lex_of_le hle (?_ : sizeOf a.1 < _)
      show sizeOf (fill left stack).1 < _
      rw [ha, Gene.branch.sizeOf_spec]; omega
    · exact Prod.Lex.left _ _ (Nat.lt_of_le_of_lt (fill_length_le right a.2) ha)
  · rcases fill_cases right a.2 with hb | hb
    · refine lex_of_le (Nat.le_trans l.length_le hle) (?_ : sizeOf b.1 < _)
      show sizeOf (fill right (fill left stack).2).1 < _
      rw [hb, Gene.branch.sizeOf_spec]; omega
    · exact Prod.Lex.left _ _
        (Nat.lt_of_le_of_lt l.length_le (Nat.lt_of_lt_of_le hb (fill_length_le left stack)))
  · rcases fill_cases template stack with ha | ha
    · refine lex_of_le (fill_length_le template stack) (?_ : sizeOf a.1 < _)
      show sizeOf (fill template stack).1 < _
      rw [ha, Gene.get.sizeOf_spec]; omega
    · exact Prod.Lex.left _ _ ha
  · exact Prod.Lex.left _ _ (Nat.lt_succ_self _)

def graftSlot (slot : Option Gene) (stack : List Gene) (s : Stream) :
    Grafted (Option Gene) stack.length :=
  match stack, slot with
  | [], slot => ⟨slot, [], s, Nat.le_refl _⟩
  | stack, none => ⟨none, stack, s, Nat.le_refl _⟩
  | stack, some g =>
    let t := graft g stack s
    ⟨some t.value, t.stack, t.stream, t.length_le⟩
termination_by (stack.length, sizeOf slot)
decreasing_by
  exact lex_of_le (Nat.le_refl _) (by simp only [Option.some.sizeOf_spec]; omega)

def graftAll (items : List Gene) (stack : List Gene) (s : Stream) :
    Grafted (List Gene) stack.length :=
  match stack, items with
  | [], items => ⟨items, [], s, Nat.le_refl _⟩
  | stack, [] => ⟨[], stack, s, Nat.le_refl _⟩
  | stack, g :: gs =>
    let t := graft g stack s
    let u := graftAll gs t.stack t.stream
    ⟨t.value :: u.value, u.stack, u.stream, Nat.le_trans u.length_le t.length_le⟩
termination_by (stack.length, sizeOf items)
decreasing_by
  · exact lex_of_le (Nat.le_refl _) (by simp only [List.cons.sizeOf_spec]; omega)
  · exact lex_of_le t.length_le (by simp only [List.cons.sizeOf_spec]; omega)

end

end Biotope.Program
