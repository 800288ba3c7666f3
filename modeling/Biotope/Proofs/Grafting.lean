import Biotope.Proofs.Opcodes
import Biotope.Program.Grafting

/-!
# What grafting moves

Grafting takes creatures from the stack and puts each into a hole. `Walk` says how it can go,
whatever places are drawn, and what holds of every walk holds of every graft: the parts of the
creature and of the stack together stay the same.
-/

namespace Biotope.Program

open Gene

/-! ## Walks -/

mutual

/-- A graft of the first gene with the first stack can come to the second gene and leave the
second stack. -/
inductive Walk : Gene → List Gene → Gene → List Gene → Prop where
  | branch {p : Probability} {left right l r : Option Gene} {stack m rest : List Gene}
      (hl : WalkSlot (fill left stack).1 (fill right (fill left stack).2).2 l m)
      (hr : WalkSlot (fill right (fill left stack).2).1 m r rest) :
      Walk (.branch p left right) stack (.branch p l r) rest
  | get {template t : Option Gene} {stack rest : List Gene}
      (h : WalkSlot (fill template stack).1 (fill template stack).2 t rest) :
      Walk (.get template) stack (.get t) rest
  | void (genes : List Gene) : Walk (.sequence genes) [] (.sequence genes) []
  | sequence {genes items stack rest : List Gene} {top : Gene} {i : Nat} (hi : i ≤ genes.length)
      (h : WalkAll (genes.insertIdx i top) stack items rest) :
      Walk (.sequence genes) (top :: stack) (.sequence items) rest
  | leaf {g : Gene} (stack : List Gene) (h : g.isLeaf = true) : Walk g stack g stack

inductive WalkSlot : Option Gene → List Gene → Option Gene → List Gene → Prop where
  | dry (slot : Option Gene) : WalkSlot slot [] slot []
  | none {stack : List Gene} (h : stack ≠ []) : WalkSlot none stack none stack
  | some {g h : Gene} {stack rest : List Gene} (hg : Walk g stack h rest) :
      WalkSlot (some g) stack (some h) rest

inductive WalkAll : List Gene → List Gene → List Gene → List Gene → Prop where
  | dry (items : List Gene) : WalkAll items [] items []
  | nil (stack : List Gene) : WalkAll [] stack [] stack
  | cons {g h : Gene} {gs hs stack m rest : List Gene} (hg : Walk g stack h m)
      (hgs : WalkAll gs m hs rest) : WalkAll (g :: gs) stack (h :: hs) rest

end

theorem below_le (n : Nat) (s : Stream) : (Stream.below (n + 1) (Nat.succ_pos n) s).1.1 ≤ n :=
  Nat.lt_succ_iff.mp (Stream.below (n + 1) (Nat.succ_pos n) s).1.2

/-- Every graft is a walk. -/
theorem walk_graft_all :
    (∀ g stack s, Walk g stack (graft g stack s).value (graft g stack s).stack) ∧
    (∀ items stack s,
      WalkAll items stack (graftAll items stack s).value (graftAll items stack s).stack) ∧
    ∀ slot stack s,
      WalkSlot slot stack (graftSlot slot stack s).value (graftSlot slot stack s).stack := by
  -- one case for each way a graft can go
  refine graft.mutual_induct _ _ _ ?branch ?get ?void ?sequence ?leaf ?noStack ?noItems ?cons
    ?slotNoStack ?slotNone ?slotSome
  case branch =>
    intro stack s p left right a b _ l hl _ hr _
    rw [graft]
    exact .branch hl hr
  case get =>
    intro stack s template a ht _
    rw [graft]
    exact .get ht
  case void =>
    intro s genes
    rw [graft]
    exact .void genes
  case sequence =>
    -- the draw stays as it is written: its fuel must not be unfolded
    intro s genes top rest place _ h
    rw [graft]
    exact .sequence (below_le genes.length s) h
  case leaf =>
    intro stack s g hb hg hs
    rw [graft]
    · exact .leaf stack (isLeaf_of_ne hb hg hs)
    all_goals assumption
  case noStack =>
    intro s items
    rw [graftAll]
    exact .dry items
  case noItems =>
    intro s stack hne
    rw [graftAll]
    · exact .nil stack
    · exact hne
  case cons =>
    intro s stack g gs hne t hg hgs _
    rw [graftAll]
    · exact .cons hg hgs
    · exact hne
  case slotNoStack =>
    intro s slot
    rw [graftSlot]
    exact .dry slot
  case slotNone =>
    intro s stack hne
    rw [graftSlot]
    · exact .none hne
    · exact hne
  case slotSome =>
    intro s stack g hne h
    rw [graftSlot]
    · exact .some h
    · exact hne

/-! ## Parts -/

theorem partsAll_insertIdx (genes : List Gene) {i : Nat} (h : i ≤ genes.length) (g : Gene) :
    partsAll (genes.insertIdx i g) = g.parts + partsAll genes := by
  rw [partsAll_perm (List.perm_insertIdx g genes h), partsAll]

theorem fill_parts (slot : Option Gene) (stack : List Gene) :
    partsSlot (fill slot stack).1 + partsAll (fill slot stack).2 =
      partsSlot slot + partsAll stack := by
  unfold fill
  split
  · rw [partsSlot, partsSlot, partsAll, zero_add]
  · rfl

mutual

/-- What a walk takes off the stack is in what has grown. -/
theorem Walk.parts_eq : ∀ {g h : Gene} {stack rest : List Gene}, Walk g stack h rest →
    h.parts + partsAll rest = g.parts + partsAll stack
  | .branch p left right, .branch _ l r, stack, rest, .branch (m := mid) hl hr => by
    have harms : partsSlot l + partsSlot r + partsAll rest =
        partsSlot left + partsSlot right + partsAll stack := calc
      _ = partsSlot l + (partsSlot r + partsAll rest) := add_assoc ..
      _ = partsSlot (fill right (fill left stack).2).1 + (partsSlot l + partsAll mid) := by
        rw [hr.parts_eq, add_left_comm]
      _ = partsSlot (fill left stack).1 + (partsSlot (fill right (fill left stack).2).1 +
          partsAll (fill right (fill left stack).2).2) := by rw [hl.parts_eq, add_left_comm]
      _ = partsSlot right + (partsSlot (fill left stack).1 + partsAll (fill left stack).2) := by
        rw [fill_parts, add_left_comm]
      _ = partsSlot left + partsSlot right + partsAll stack := by
        rw [fill_parts]
        abel
    rw [parts, parts, Multiset.cons_add, Multiset.cons_add, harms]
  | .get template, .get t, stack, _, .get h => by
    rw [parts, parts, Multiset.cons_add, Multiset.cons_add, h.parts_eq, fill_parts]
  | _, _, _, _, .void _ => rfl
  | .sequence genes, .sequence items, top :: stack, rest, .sequence hi h => by
    rw [parts, parts, Multiset.cons_add, Multiset.cons_add, h.parts_eq,
      partsAll_insertIdx genes hi, partsAll, add_assoc, add_left_comm]
  | _, _, _, _, .leaf _ _ => rfl

theorem WalkSlot.parts_eq : ∀ {slot x : Option Gene} {stack rest : List Gene},
    WalkSlot slot stack x rest → partsSlot x + partsAll rest = partsSlot slot + partsAll stack
  | _, _, _, _, .dry _ => rfl
  | _, _, _, _, .none _ => rfl
  | _, _, _, _, .some h => h.parts_eq

theorem WalkAll.parts_eq : ∀ {gs hs stack rest : List Gene}, WalkAll gs stack hs rest →
    partsAll hs + partsAll rest = partsAll gs + partsAll stack
  | _, _, _, _, .dry _ => rfl
  | _, _, _, _, .nil _ => rfl
  | _, _, _, _, .cons h hs => by
    rw [partsAll, partsAll, add_assoc, hs.parts_eq, add_left_comm, h.parts_eq]
    abel

end

/-- What a graft takes off the stack is in what has grown. -/
theorem graft_parts_all :
    (∀ g stack s, (graft g stack s).value.parts + partsAll (graft g stack s).stack =
      g.parts + partsAll stack) ∧
    (∀ items stack s, partsAll (graftAll items stack s).value +
      partsAll (graftAll items stack s).stack = partsAll items + partsAll stack) ∧
    ∀ slot stack s, partsSlot (graftSlot slot stack s).value +
      partsAll (graftSlot slot stack s).stack = partsSlot slot + partsAll stack :=
  let ⟨hgene, hall, hslot⟩ := walk_graft_all
  ⟨fun g stack s => (hgene g stack s).parts_eq, fun items stack s => (hall items stack s).parts_eq,
    fun slot stack s => (hslot slot stack s).parts_eq⟩

theorem graft_opcodes (g : Gene) (stack : List Gene) (s : Stream) :
    (graft g stack s).value.opcodes + opcodesAll (graft g stack s).stack =
      g.opcodes + opcodesAll stack := by
  rw [opcodes, opcodesAll, ← Multiset.map_add, graft_parts_all.1, Multiset.map_add, opcodes,
    opcodesAll]

end Biotope.Program
