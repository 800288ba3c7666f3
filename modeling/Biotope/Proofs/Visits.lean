import Biotope.Proofs.Holes

/-!
# Visits of a graft

A graft goes on into what it has just attached, so the tree that it walks grows on the way. The
genes of the creature and of the stack are numbered through beforehand, and a tour is a graft that
notes which of them it is called on. No number is noted twice, so there are no more calls than
genes; as long as the stack lasts, every gene that is there has its call.
-/

namespace Biotope

namespace Gene

mutual

def preorder : Gene → List Gene
  | branch p left right => branch p left right :: (preorderSlot left ++ preorderSlot right)
  | chop p => [chop p]
  | copy p => [copy p]
  | get template => get template :: preorderSlot template
  | merge => [merge]
  | mutate p => [mutate p]
  | put => [put]
  | sequence genes => sequence genes :: preorderAll genes

def preorderSlot : Option Gene → List Gene
  | none => []
  | some g => preorder g

def preorderAll : List Gene → List Gene
  | [] => []
  | g :: gs => preorder g ++ preorderAll gs

end

mutual

theorem length_preorder : ∀ g : Gene, g.preorder.length = g.size
  | .branch _ left right => by
    rw [preorder, List.length_cons, List.length_append, length_preorderSlot left,
      length_preorderSlot right, size, Nat.add_comm]
  | .get template => by
    rw [preorder, List.length_cons, length_preorderSlot template, size, Nat.add_comm]
  | .sequence genes => by
    rw [preorder, List.length_cons, length_preorderAll genes, size, Nat.add_comm]
  | .chop _ | .copy _ | .merge | .mutate _ | .put => rfl

theorem length_preorderSlot : ∀ slot : Option Gene, (preorderSlot slot).length = sizeSlot slot
  | none => rfl
  | some g => length_preorder g

theorem length_preorderAll : ∀ gs : List Gene, (preorderAll gs).length = sizeAll gs
  | [] => rfl
  | g :: gs => by
    rw [preorderAll, List.length_append, length_preorder g, length_preorderAll gs, sizeAll]

end

theorem preorder_of_isLeaf : ∀ {g : Gene}, g.isLeaf = true → g.preorder = [g]
  | .chop _, _ | .copy _, _ | .merge, _ | .mutate _, _ | .put, _ => rfl

theorem preorderAll_append : ∀ gs hs : List Gene,
    preorderAll (gs ++ hs) = preorderAll gs ++ preorderAll hs
  | [], _ => rfl
  | g :: gs, hs => by
    rw [List.cons_append, preorderAll, preorderAll_append gs hs, preorderAll, List.append_assoc]

end Gene

namespace Program

open Gene

/-! ## Tours -/

structure Tour (α : Type) (bound : Nat) extends Grafted α bound where
  /-- The genes that a graft was called on, each with its number, in the order of the calls. -/
  visits : List (Gene × Nat)
  /-- The number of the first gene on the stack that is left. -/
  next : Nat

/-- The number of what is in a slot once it is filled, and of the first gene on the stack then. -/
def seat (slot : Option Gene) (stack : List Gene) (n k : Nat) : Nat × Nat :=
  match slot, stack with
  | none, top :: _ => (k, k + top.size)
  | _, _ => (n, k)

def roots (n : Nat) : List Gene → List (Gene × Nat)
  | [] => []
  | g :: gs => (g, n) :: roots (n + g.size) gs

/-- What fills a slot was there before, or the stack has become shorter. -/
theorem fill_lex {slot : Option Gene} {stack : List Gene} {m bound n : Nat}
    (hm : m ≤ (fill slot stack).2.length) (hbound : stack.length ≤ bound) (hn : sizeOf slot < n) :
    Prod.Lex (· < ·) (· < ·) (m, sizeOf (fill slot stack).1) (bound, n) := by
  have hfill := fill_length_le slot stack
  rcases fill_cases slot stack with h | h
  · rw [h]
    exact lex_of_le (by omega) hn
  · exact Prod.Lex.left _ _ (by omega)

mutual

/-- The graft of a gene of number `n`, the first gene on the stack being of number `k`. -/
def tour (g : Gene) (n : Nat) (stack : List Gene) (k : Nat) (s : Stream) :
    Tour Gene stack.length :=
  match g with
  | .branch p left right =>
    let a := fill left stack
    let i := seat left stack (n + 1) k
    let b := fill right a.2
    let j := seat right a.2 (n + 1 + sizeSlot left) i.2
    have hle : b.2.length ≤ stack.length :=
      Nat.le_trans (fill_length_le right a.2) (fill_length_le left stack)
    let l := tourSlot a.1 i.1 b.2 j.2 s
    let r := tourSlot b.1 j.1 l.stack l.next l.stream
    ⟨⟨.branch p l.value r.value, r.stack, r.stream,
      Nat.le_trans r.length_le (Nat.le_trans l.length_le hle)⟩,
      (.branch p left right, n) :: (l.visits ++ r.visits), r.next⟩
  | .get template =>
    let a := fill template stack
    let i := seat template stack (n + 1) k
    let t := tourSlot a.1 i.1 a.2 i.2 s
    ⟨⟨.get t.value, t.stack, t.stream, Nat.le_trans t.length_le (fill_length_le template stack)⟩,
      (.get template, n) :: t.visits, t.next⟩
  | .sequence genes =>
    match stack with
    | [] => ⟨⟨.sequence genes, [], s, Nat.le_refl _⟩, [(.sequence genes, n)], k⟩
    | top :: rest =>
      let place := Stream.below (genes.length + 1) (Nat.succ_pos _) s
      let t := tourAll ((roots (n + 1) genes).insertIdx place.1 (top, k)) rest (k + top.size) place.2
      ⟨⟨.sequence t.value, t.stack, t.stream, Nat.le_succ_of_le t.length_le⟩,
        (.sequence genes, n) :: t.visits, t.next⟩
  | g => ⟨⟨g, stack, s, Nat.le_refl _⟩, [(g, n)], k⟩
termination_by (stack.length, sizeOf g)
decreasing_by
  · exact fill_lex (fill_length_le right a.2) (Nat.le_refl _)
      (by rw [Gene.branch.sizeOf_spec]; omega)
  · exact fill_lex l.length_le (fill_length_le left stack)
      (by rw [Gene.branch.sizeOf_spec]; omega)
  · exact fill_lex (Nat.le_refl _) (Nat.le_refl _) (by rw [Gene.get.sizeOf_spec]; omega)
  · exact Prod.Lex.left _ _ (Nat.lt_succ_self _)

def tourSlot (slot : Option Gene) (n : Nat) (stack : List Gene) (k : Nat) (s : Stream) :
    Tour (Option Gene) stack.length :=
  match stack, slot with
  | [], slot => ⟨⟨slot, [], s, Nat.le_refl _⟩, [], k⟩
  | stack, none => ⟨⟨none, stack, s, Nat.le_refl _⟩, [], k⟩
  | stack, some g =>
    let t := tour g n stack k s
    ⟨⟨some t.value, t.stack, t.stream, t.length_le⟩, t.visits, t.next⟩
termination_by (stack.length, sizeOf slot)
decreasing_by
  exact lex_of_le (Nat.le_refl _) (by simp only [Option.some.sizeOf_spec]; omega)

def tourAll (items : List (Gene × Nat)) (stack : List Gene) (k : Nat) (s : Stream) :
    Tour (List Gene) stack.length :=
  match stack, items with
  | [], items => ⟨⟨items.map Prod.fst, [], s, Nat.le_refl _⟩, [], k⟩
  | stack, [] => ⟨⟨[], stack, s, Nat.le_refl _⟩, [], k⟩
  | stack, (g, n) :: items =>
    let t := tour g n stack k s
    let u := tourAll items t.stack t.next t.stream
    ⟨⟨t.value :: u.value, u.stack, u.stream, Nat.le_trans u.length_le t.length_le⟩,
      t.visits ++ u.visits, u.next⟩
termination_by (stack.length, sizeOf items)
decreasing_by
  · exact lex_of_le (Nat.le_refl _)
      (by simp only [List.cons.sizeOf_spec, Prod.mk.sizeOf_spec]; omega)
  · exact lex_of_le t.length_le (by simp only [List.cons.sizeOf_spec]; omega)

end

attribute [ext] Grafted

theorem Grafted.stack_eq_nil {α : Type} {stack : List Gene} (t : Grafted α stack.length)
    (h : stack = []) : t.stack = [] := by
  subst h
  exact List.eq_nil_of_length_eq_zero (Nat.le_zero.mp t.length_le)

theorem map_fst_roots : ∀ (n : Nat) (gs : List Gene), (roots n gs).map Prod.fst = gs
  | _, [] => rfl
  | n, g :: gs => congrArg (g :: ·) (map_fst_roots (n + g.size) gs)

theorem length_roots (n : Nat) (gs : List Gene) : (roots n gs).length = gs.length := by
  rw [← List.length_map Prod.fst, map_fst_roots]

/-- A tour does what the graft does. -/
theorem tour_eq_graft_all :
    (∀ g n stack k s, (tour g n stack k s).toGrafted = graft g stack s) ∧
    (∀ items stack k s,
      (tourAll items stack k s).toGrafted = graftAll (items.map Prod.fst) stack s) ∧
    ∀ slot n stack k s, (tourSlot slot n stack k s).toGrafted = graftSlot slot stack s := by
  refine tour.mutual_induct _ _ _ ?branch ?get ?void ?sequence ?leaf ?noStack ?noItems ?cons
    ?slotNoStack ?slotNone ?slotSome
  case branch =>
    intro n stack k s p left right a i b j _ l _ hl _ hr
    rw [tour, graft]
    -- the second arm depends on what the first one leaves, so it is rewritten field by field
    ext1 <;> dsimp only <;> rw [← hl, ← hr]
  case get =>
    intro n stack k s template a i _ ht
    rw [tour, graft]
    simp only [← ht]
  case void =>
    intro n k s genes
    rw [tour, graft]
  case sequence =>
    intro n k s genes top rest place _ h
    rw [List.map_insertIdx, map_fst_roots] at h
    rw [tour, graft]
    simp only [← h]
  case leaf =>
    intro n stack k s g hb hg hs
    rw [tour, graft]
    all_goals assumption
  case noStack =>
    intro k s items
    rw [tourAll, graftAll]
  case noItems =>
    intro k s stack hne
    rw [tourAll, List.map_nil, graftAll]
    · exact hne
    · exact hne
  case cons =>
    intro k s stack g n items hne t ht _ hu
    rw [tourAll, List.map_cons, graftAll]
    · ext1 <;> dsimp only <;> rw [← ht, ← hu]
    · exact hne
    · exact hne
  case slotNoStack =>
    intro n k s slot
    rw [tourSlot, graftSlot]
  case slotNone =>
    intro n k s stack hne
    rw [tourSlot, graftSlot]
    · exact hne
    · exact hne
  case slotSome =>
    intro n k s stack g hne h
    rw [tourSlot, graftSlot]
    · simp only [← h]
    · exact hne
    · exact hne

/-! ## Numbers -/

def numbered (genes : List Gene) (n : Nat) : Multiset (Gene × Nat) := ↑(genes.zipIdx n)

section
variable {genes : List Gene} {g : Gene} {n : Nat}

theorem numbered_cons : numbered (g :: genes) n = (g, n) ::ₘ numbered genes (n + 1) := by
  rw [numbered, List.zipIdx_cons]
  rfl

theorem numbered_append (hs : List Gene) :
    numbered (genes ++ hs) n = numbered genes n + numbered hs (n + genes.length) := by
  rw [numbered, List.zipIdx_append]
  rfl

end

def numberedItems (items : List (Gene × Nat)) : Multiset (Gene × Nat) :=
  (items.map fun x => numbered x.1.preorder x.2).sum

theorem numberedItems_roots : ∀ (n : Nat) (gs : List Gene),
    numberedItems (roots n gs) = numbered (preorderAll gs) n
  | _, [] => rfl
  | n, g :: gs => by
    have ih := numberedItems_roots (n + g.size) gs
    rw [numberedItems] at ih
    rw [roots, numberedItems, List.map_cons, List.sum_cons, ih, preorderAll, numbered_append,
      length_preorder]

theorem numberedItems_insertIdx (items : List (Gene × Nat)) {i : Nat} (h : i ≤ items.length)
    (x : Gene × Nat) :
    numberedItems (items.insertIdx i x) = numbered x.1.preorder x.2 + numberedItems items := by
  have hperm := (List.perm_insertIdx x items h).map fun x => numbered x.1.preorder x.2
  rw [numberedItems, hperm.sum_eq, List.map_cons, List.sum_cons, numberedItems]

/-! ## What is visited -/

/-- The genes of the trees and of the stack are visited or left on the stack, each with its number
and once at most, and all of them if the stack lasts. -/
structure Covered (visits : List (Gene × Nat)) (rest : List Gene) (next : Nat)
    (trees : Multiset (Gene × Nat)) (stack : List Gene) (k : Nat) : Prop where
  next_eq : next + sizeAll rest = k + sizeAll stack
  le : ↑visits + numbered (preorderAll rest) next ≤ trees + numbered (preorderAll stack) k
  eq : rest ≠ [] →
    ↑visits + numbered (preorderAll rest) next = trees + numbered (preorderAll stack) k

namespace Covered

variable {visits visits' : List (Gene × Nat)} {rest rest' stack : List Gene} {next next' k : Nat}
  {trees trees' : Multiset (Gene × Nat)}

theorem nil : Covered [] stack k 0 stack k := ⟨rfl, le_rfl, fun _ => rfl⟩

theorem dry : Covered [] [] k trees [] k :=
  ⟨rfl, by simp [numbered, preorderAll], fun h => absurd rfl h⟩

theorem root (x : Gene × Nat) (h : Covered visits rest next trees stack k) :
    Covered (x :: visits) rest next (x ::ₘ trees) stack k := by
  refine ⟨h.next_eq, ?_, fun hrest => ?_⟩
  · rw [← Multiset.cons_coe, Multiset.cons_add, Multiset.cons_add]
    exact (Multiset.cons_le_cons_iff x).mpr h.le
  · rw [← Multiset.cons_coe, Multiset.cons_add, Multiset.cons_add, h.eq hrest]

theorem append (h : Covered visits rest next trees stack k)
    (h' : Covered visits' rest' next' trees' rest next) (hlast : rest = [] → rest' = []) :
    Covered (visits ++ visits') rest' next' (trees + trees') stack k := by
  refine ⟨h'.next_eq.trans h.next_eq, ?_, fun hrest => ?_⟩
  · rw [← Multiset.coe_add]
    calc ↑visits + ↑visits' + numbered (preorderAll rest') next'
      _ = ↑visits + (↑visits' + numbered (preorderAll rest') next') := add_assoc ..
      _ ≤ ↑visits + (trees' + numbered (preorderAll rest) next) := add_le_add_right h'.le _
      _ = trees' + (↑visits + numbered (preorderAll rest) next) := add_left_comm ..
      _ ≤ trees' + (trees + numbered (preorderAll stack) k) := add_le_add_right h.le _
      _ = trees + trees' + numbered (preorderAll stack) k := by abel
  · rw [← Multiset.coe_add, add_assoc, h'.eq hrest, add_left_comm, h.eq (mt hlast hrest)]
    abel

/-- What is taken from the stack is visited where it is put. -/
theorem take {top : Gene}
    (h : Covered visits rest next (numbered top.preorder k + trees) stack (k + top.size)) :
    Covered visits rest next trees (top :: stack) k := by
  have htop : numbered top.preorder k + trees + numbered (preorderAll stack) (k + top.size) =
      trees + numbered (preorderAll (top :: stack)) k := by
    rw [preorderAll, numbered_append, length_preorder, add_left_comm, add_assoc]
  refine ⟨?_, h.le.trans_eq htop, fun hrest => (h.eq hrest).trans htop⟩
  rw [h.next_eq, sizeAll, Nat.add_assoc]

theorem fill {slot : Option Gene} {n : Nat}
    (h : Covered visits rest next (numbered (preorderSlot (fill slot stack).1)
      (seat slot stack n k).1 + trees) (fill slot stack).2 (seat slot stack n k).2) :
    Covered visits rest next (numbered (preorderSlot slot) n + trees) stack k := by
  match slot, stack with
  | none, top :: stack =>
    have htrees : numbered (preorderSlot none) n + trees = trees := zero_add trees
    rw [htrees]
    exact Covered.take h
  | none, [] => exact h
  | some g, stack => exact h

end Covered

theorem tour_covers_all :
    (∀ g n stack k s, Covered (tour g n stack k s).visits (tour g n stack k s).stack
      (tour g n stack k s).next (numbered g.preorder n) stack k) ∧
    (∀ items stack k s, Covered (tourAll items stack k s).visits (tourAll items stack k s).stack
      (tourAll items stack k s).next (numberedItems items) stack k) ∧
    ∀ slot n stack k s, Covered (tourSlot slot n stack k s).visits
      (tourSlot slot n stack k s).stack (tourSlot slot n stack k s).next
      (numbered (preorderSlot slot) n) stack k := by
  refine tour.mutual_induct _ _ _ ?branch ?get ?void ?sequence ?leaf ?noStack ?noItems ?cons
    ?slotNoStack ?slotNone ?slotSome
  case branch =>
    intro n stack k s p left right a i b j _ l hl _ hr _
    let r := tourSlot b.1 j.1 l.stack l.next l.stream
    have hdry : l.stack = [] → r.stack = [] := r.stack_eq_nil
    -- the right slot is filled last, so it is emptied first
    have harms := hl.append hr hdry
    rw [add_comm] at harms
    have harms := harms.fill
    rw [add_comm] at harms
    rw [tour, preorder, numbered_cons, numbered_append, length_preorderSlot]
    exact harms.fill.root _
  case get =>
    intro n stack k s template a i ht _
    rw [← add_zero (numbered (preorderSlot a.1) i.1)] at ht
    have ht := ht.fill
    rw [add_zero] at ht
    rw [tour, preorder, numbered_cons]
    exact ht.root _
  case void =>
    intro n k s genes
    rw [tour, preorder, numbered_cons]
    exact Covered.dry.root _
  case sequence =>
    -- the draw stays as it is written: its fuel must not be unfolded
    intro n k s genes top rest place _ h
    have hplace : (Stream.below (genes.length + 1) (Nat.succ_pos _) s).1.1 ≤
        (roots (n + 1) genes).length := (below_le genes.length s).trans_eq (length_roots _ _).symm
    rw [numberedItems_insertIdx _ hplace, numberedItems_roots] at h
    rw [tour, preorder, numbered_cons]
    dsimp only
    exact h.take.root _
  case leaf =>
    intro n stack k s g hb hg hs
    rw [tour, preorder_of_isLeaf (isLeaf_of_ne hb hg hs)]
    · exact Covered.nil.root _
    all_goals assumption
  case noStack =>
    intro k s items
    rw [tourAll]
    exact .dry
  case noItems =>
    intro k s stack hne
    rw [tourAll]
    · exact .nil
    · exact hne
  case cons =>
    intro k s stack g n items hne t ht hu _
    let u := tourAll items t.stack t.next t.stream
    have hdry : t.stack = [] → u.stack = [] := u.stack_eq_nil
    rw [tourAll]
    · exact ht.append hu hdry
    · exact hne
  case slotNoStack =>
    intro n k s slot
    rw [tourSlot]
    exact .dry
  case slotNone =>
    intro n k s stack hne
    rw [tourSlot]
    · exact .nil
    · exact hne
  case slotSome =>
    intro n k s stack g hne h
    rw [tourSlot]
    · exact h
    · exact hne

/-- A graft is called on genes of the creature and of what it takes from the stack, on none of
them twice, so it takes no more calls than there are genes. If it leaves something on the stack, it
has been called on all of them. -/
theorem graft_visits (g : Gene) (stack : List Gene) (s : Stream) :
    let t := tour g 0 stack g.size s
    t.toGrafted = graft g stack s ∧ ∃ taken, stack = taken ++ t.stack ∧
      t.visits.Subperm (preorderAll (g :: taken)).zipIdx ∧ (t.visits.map Prod.snd).Nodup ∧
      t.visits.length ≤ g.size + sizeAll taken ∧ t.visits.length ≤ g.size + sizeAll stack ∧
      (t.stack ≠ [] → t.visits.Perm (preorderAll (g :: taken)).zipIdx) := by
  intro t
  have hgraft : t.toGrafted = graft g stack s := tour_eq_graft_all.1 g 0 stack g.size s
  have hcovered : Covered t.visits t.stack t.next (numbered g.preorder 0) stack g.size :=
    tour_covers_all.1 g 0 stack g.size s
  obtain ⟨taken, hstack, -⟩ := grafts_all.1 g stack s
  rw [← hgraft] at hstack
  have hpreorder : preorderAll stack = preorderAll taken ++ preorderAll t.stack := by
    rw [← preorderAll_append, ← hstack]
  have hsize : sizeAll stack = sizeAll taken + sizeAll t.stack := by
    rw [← length_preorderAll, hpreorder, List.length_append, length_preorderAll, length_preorderAll]
  have hnext : t.next = g.size + sizeAll taken := by
    have := hcovered.next_eq
    omega
  -- what is left on the stack has the last numbers and can be cancelled
  have hwhole : numbered g.preorder 0 + numbered (preorderAll stack) g.size =
      numbered (preorderAll (g :: taken)) 0 + numbered (preorderAll t.stack) t.next := by
    rw [hpreorder, numbered_append, preorderAll, numbered_append, length_preorder,
      length_preorderAll, hnext, Nat.zero_add, add_assoc]
  have hle : (t.visits : Multiset (Gene × Nat)) ≤ numbered (preorderAll (g :: taken)) 0 :=
    le_of_add_le_add_right (hcovered.le.trans_eq hwhole)
  have hsub : t.visits.Subperm (preorderAll (g :: taken)).zipIdx := Multiset.coe_le.mp hle
  have hlength := hsub.length_le
  rw [List.length_zipIdx, length_preorderAll, sizeAll] at hlength
  refine ⟨hgraft, taken, hstack, hsub, ?_, hlength, by omega, fun hrest => ?_⟩
  · exact Multiset.coe_nodup.mp
      (Multiset.nodup_of_le (Multiset.map_le_map hle) (List.nodup_zipIdx_map_snd _))
  · exact Multiset.coe_eq_coe.mp (add_right_cancel ((hcovered.eq hrest).trans hwhole))

/-- A template that has come in is gone through like one that was there. -/
theorem graft_visits_template :
    let t := tour (.get none) 0 [.get none, .put, .merge] 1 default
    t.stack ≠ [] ∧ t.visits.length ≤ 4 ∧ ∃ taken, [.get none, .put, .merge] = taken ++ t.stack ∧
      t.visits.Perm (preorderAll (.get none :: taken)).zipIdx := by
  intro t
  have hne : t.stack ≠ [] := by simp [t, tour, tourSlot, fill, seat]
  obtain ⟨-, taken, hstack, -, -, -, hlength, hperm⟩ :=
    graft_visits (.get none) [.get none, .put, .merge] default
  exact ⟨hne, hlength, taken, hstack, hperm hne⟩

end Program

end Biotope
