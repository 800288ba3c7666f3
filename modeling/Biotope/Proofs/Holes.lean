import Biotope.Proofs.Grafting
import Biotope.Proofs.Replicas

/-!
# Filling holes

A creature that was grafted onto is still there in what has grown. Creatures from the top of the
stack sit where it had holes, and more of them in the holes that they brought along. Holes stay
open only if the stack runs dry.
-/

namespace Biotope.Program

open Gene

/-! ## Grafts -/

mutual

/-- The first creature has become the second one by taking in those of the bag, each of which may
have taken in others. Holes stay open only if the supply ran dry. -/
inductive Grafts (dry : Prop) : Gene → Multiset Gene → Gene → Prop where
  | leaf {g : Gene} (h : g.isLeaf = true) : Grafts dry g 0 g
  | branch {q : Probability} {l r l' r' : Option Gene} {us vs : Multiset Gene}
      (hl : GraftsSlot dry l us l') (hr : GraftsSlot dry r vs r') :
      Grafts dry (.branch q l r) (us + vs) (.branch q l' r')
  | get {t t' : Option Gene} {us : Multiset Gene} (h : GraftsSlot dry t us t') :
      Grafts dry (.get t) us (.get t')
  | closed {gs : List Gene} (h : dry) : Grafts dry (.sequence gs) 0 (.sequence gs)
  | enlarged {gs hs : List Gene} {us vs : Multiset Gene} {c c' : Gene} {i : Nat}
      (hc : Grafts dry c us c') (hgs : GraftsAll dry gs vs hs) (hi : i ≤ hs.length) :
      Grafts dry (.sequence gs) (c ::ₘ (us + vs)) (.sequence (hs.insertIdx i c'))

inductive GraftsSlot (dry : Prop) : Option Gene → Multiset Gene → Option Gene → Prop where
  | vacant (h : dry) : GraftsSlot dry none 0 none
  | filled {c c' : Gene} {us : Multiset Gene} (h : Grafts dry c us c') :
      GraftsSlot dry none (c ::ₘ us) (some c')
  | kept {g g' : Gene} {us : Multiset Gene} (h : Grafts dry g us g') :
      GraftsSlot dry (some g) us (some g')

inductive GraftsAll (dry : Prop) : List Gene → Multiset Gene → List Gene → Prop where
  | nil : GraftsAll dry [] 0 []
  | cons {g g' : Gene} {gs hs : List Gene} {us vs : Multiset Gene} (h : Grafts dry g us g')
      (hgs : GraftsAll dry gs vs hs) : GraftsAll dry (g :: gs) (us + vs) (g' :: hs)

end

section
variable {dry dry' : Prop}

mutual

theorem Grafts.mono (hd : dry → dry') : ∀ {g h : Gene} {us : Multiset Gene}, Grafts dry g us h →
    Grafts dry' g us h
  | _, _, _, .leaf h => .leaf h
  | .branch .., _, _, .branch hl hr => .branch (hl.mono hd) (hr.mono hd)
  | .get _, _, _, .get h => .get (h.mono hd)
  | .sequence _, _, _, .closed h => .closed (hd h)
  | .sequence _, _, _, .enlarged hc hgs hi => .enlarged (hc.mono hd) (hgs.mono hd) hi

theorem GraftsSlot.mono (hd : dry → dry') : ∀ {slot x : Option Gene} {us : Multiset Gene},
    GraftsSlot dry slot us x → GraftsSlot dry' slot us x
  | none, _, _, .vacant h => .vacant (hd h)
  | none, _, _, .filled h => .filled (h.mono hd)
  | some _, _, _, .kept h => .kept (h.mono hd)

theorem GraftsAll.mono (hd : dry → dry') : ∀ {gs hs : List Gene} {us : Multiset Gene},
    GraftsAll dry gs us hs → GraftsAll dry' gs us hs
  | [], _, _, .nil => .nil
  | _ :: _, _, _, .cons h hgs => .cons (h.mono hd) (hgs.mono hd)

end

mutual

theorem Grafts.refl (hd : dry) : ∀ g, Grafts dry g 0 g
  | .branch q l r => by
    have h := Grafts.branch (q := q) (GraftsSlot.refl hd l) (GraftsSlot.refl hd r)
    rwa [add_zero] at h
  | .get t => .get (GraftsSlot.refl hd t)
  | .sequence _ => .closed hd
  | .chop _ | .copy _ | .merge | .mutate _ | .put => .leaf rfl

theorem GraftsSlot.refl (hd : dry) : ∀ slot, GraftsSlot dry slot 0 slot
  | none => .vacant hd
  | some g => .kept (Grafts.refl hd g)

end

theorem GraftsAll.refl (hd : dry) (gs : List Gene) : GraftsAll dry gs 0 gs := by
  induction gs with
  | nil => exact .nil
  | cons g gs ih =>
    have h := GraftsAll.cons (Grafts.refl hd g) ih
    rwa [add_zero] at h

/-- What was put among the items can be told apart from them afterwards. -/
theorem GraftsAll.of_insertIdx {c : Gene} : ∀ {i : Nat} {gs ks : List Gene} {us : Multiset Gene},
    i ≤ gs.length → GraftsAll dry (gs.insertIdx i c) us ks → ∃ vs ws c' hs, us = vs + ws ∧
      ks = hs.insertIdx i c' ∧ i ≤ hs.length ∧ Grafts dry c vs c' ∧ GraftsAll dry gs ws hs
  | 0, _, _, _, _, h => by
    rw [List.insertIdx_zero] at h
    cases h with
    | cons hc hgs => exact ⟨_, _, _, _, rfl, List.insertIdx_zero.symm, Nat.zero_le _, hc, hgs⟩
  | i + 1, g :: gs, _, _, hi, h => by
    rw [List.insertIdx_succ_cons] at h
    cases h with
    | @cons _ g' _ _ vs _ hg hgs =>
      obtain ⟨ws, xs, c', hs, rfl, rfl, hle, hc, hgs⟩ :=
        GraftsAll.of_insertIdx (Nat.le_of_succ_le_succ hi) hgs
      exact ⟨ws, vs + xs, c', g' :: hs, add_left_comm .., List.insertIdx_succ_cons.symm,
        Nat.succ_le_succ hle, hc, .cons hg hgs⟩

end

def Attended (slot : Option Gene) (stack : List Gene) : Prop := slot = none → stack = []

theorem eq_nil_of_append {taken stack rest : List Gene} (h : stack = taken ++ rest)
    (hs : stack = []) : rest = [] := by
  rw [hs] at h
  exact (List.append_eq_nil_iff.mp h.symm).2

theorem fill_grafts (slot : Option Gene) (stack : List Gene) :
    Attended (fill slot stack).1 (fill slot stack).2 ∧
      ∃ new, stack = new ++ (fill slot stack).2 ∧ ∀ dry us x,
        GraftsSlot dry (fill slot stack).1 us x → GraftsSlot dry slot (↑new + us) x := by
  match slot, stack with
  | none, top :: rest =>
    refine ⟨nofun, [top], rfl, fun dry us x h => ?_⟩
    cases h with
    | kept h => exact .filled h
  | none, [] =>
    refine ⟨fun _ => rfl, [], rfl, fun dry us x h => ?_⟩
    rwa [Multiset.coe_nil, zero_add]
  | some g, stack =>
    refine ⟨nofun, [], rfl, fun dry us x h => ?_⟩
    rwa [Multiset.coe_nil, zero_add]

mutual

/-- A walk takes the top of the stack off and makes nothing but grafts of it. -/
theorem Walk.grafts : ∀ {g h : Gene} {stack rest : List Gene}, Walk g stack h rest →
    ∃ taken, stack = taken ++ rest ∧ Grafts (rest = []) g taken h
  | .branch p left right, .branch _ l r, stack, rest, .branch (m := mid) hl hr => by
    obtain ⟨hattended, new, hnew, hleft⟩ := fill_grafts left stack
    obtain ⟨hattended', new', hnew', hright⟩ := fill_grafts right (fill left stack).2
    -- what is dry for one step is dry for all that follow
    obtain ⟨us, hus, hl⟩ := hl.grafts fun h => eq_nil_of_append hnew' (hattended h)
    obtain ⟨vs, hvs, hr⟩ := hr.grafts fun h => eq_nil_of_append hus (hattended' h)
    have hdry : mid = [] → rest = [] := eq_nil_of_append hvs
    have hgrafts : Grafts (rest = []) (.branch p left right) ((↑new + ↑us) + (↑new' + ↑vs))
        (.branch p l r) :=
      .branch (hleft _ _ _ (hl.mono hdry)) (hright _ _ _ hr)
    refine ⟨new ++ new' ++ us ++ vs, ?_, ?_⟩
    · rw [List.append_assoc, ← hvs, List.append_assoc, ← hus, List.append_assoc, ← hnew', ← hnew]
    · convert hgrafts using 1
      simp only [← Multiset.coe_add]
      abel
  | .get template, .get t, stack, rest, .get h => by
    obtain ⟨hattended, new, hnew, htemplate⟩ := fill_grafts template stack
    obtain ⟨us, hus, ht⟩ := h.grafts hattended
    refine ⟨new ++ us, ?_, ?_⟩
    · rw [List.append_assoc, ← hus, ← hnew]
    · rw [← Multiset.coe_add]
      exact .get (htemplate _ _ _ ht)
  | _, _, _, _, .void _ => ⟨[], rfl, .closed rfl⟩
  | .sequence genes, _, top :: stack, rest, .sequence hi h => by
    obtain ⟨us, hus, h⟩ := h.grafts
    obtain ⟨vs, ws, c', hs, hsum, rfl, hle, hc, hgs⟩ := GraftsAll.of_insertIdx hi h
    refine ⟨top :: us, congrArg (top :: ·) hus, ?_⟩
    rw [← Multiset.cons_coe, hsum]
    exact .enlarged hc hgs hle
  | _, _, _, _, .leaf _ h => ⟨[], rfl, .leaf h⟩

theorem WalkSlot.grafts : ∀ {slot x : Option Gene} {stack rest : List Gene},
    WalkSlot slot stack x rest → Attended slot stack →
      ∃ taken, stack = taken ++ rest ∧ GraftsSlot (rest = []) slot taken x
  | slot, _, _, _, .dry _, _ => ⟨[], rfl, .refl rfl slot⟩
  | _, _, _, _, .none hne, hattended => absurd (hattended rfl) hne
  | _, _, _, _, .some hg, _ => by
    obtain ⟨us, hus, hg⟩ := hg.grafts
    exact ⟨us, hus, .kept hg⟩

theorem WalkAll.grafts : ∀ {gs hs stack rest : List Gene}, WalkAll gs stack hs rest →
    ∃ taken, stack = taken ++ rest ∧ GraftsAll (rest = []) gs taken hs
  | gs, _, _, _, .dry _ => ⟨[], rfl, .refl rfl gs⟩
  | _, _, _, _, .nil _ => ⟨[], rfl, .nil⟩
  | _, _, stack, rest, .cons (m := mid) hg hgs => by
    obtain ⟨us, hus, hg⟩ := hg.grafts
    obtain ⟨vs, hvs, hgs⟩ := hgs.grafts
    have hdry : mid = [] → rest = [] := eq_nil_of_append hvs
    refine ⟨us ++ vs, ?_, ?_⟩
    · rw [List.append_assoc, ← hvs, ← hus]
    · rw [← Multiset.coe_add]
      exact .cons (hg.mono hdry) hgs

end

/-- Grafting takes the top of the stack off and makes nothing but grafts of it. -/
theorem grafts_all :
    (∀ g stack s, ∃ taken, stack = taken ++ (graft g stack s).stack ∧
      Grafts ((graft g stack s).stack = []) g taken (graft g stack s).value) ∧
    (∀ items stack s, ∃ taken, stack = taken ++ (graftAll items stack s).stack ∧
      GraftsAll ((graftAll items stack s).stack = []) items taken
        (graftAll items stack s).value) ∧
    ∀ slot stack s, Attended slot stack →
      ∃ taken, stack = taken ++ (graftSlot slot stack s).stack ∧
        GraftsSlot ((graftSlot slot stack s).stack = []) slot taken
          (graftSlot slot stack s).value :=
  let ⟨hgene, hall, hslot⟩ := walk_graft_all
  ⟨fun g stack s => (hgene g stack s).grafts, fun items stack s => (hall items stack s).grafts,
    fun slot stack s => (hslot slot stack s).grafts⟩

/-- Grafting takes creatures from the top of the stack only and moves all their genes into what
has grown, in which the creature is still there with theirs grafted on. -/
theorem graft_keeps (g : Gene) (stack : List Gene) (s : Stream) :
    (∃ taken, stack = taken ++ (graft g stack s).stack ∧
      Grafts ((graft g stack s).stack = []) g taken (graft g stack s).value) ∧
    (graft g stack s).value.parts + partsAll (graft g stack s).stack = g.parts + partsAll stack :=
  ⟨grafts_all.1 g stack s, graft_parts_all.1 g stack s⟩

/-! ## Holes -/

mutual

def gaps : Gene → Nat
  | .branch _ left right => gapsSlot left + gapsSlot right
  | .get template => gapsSlot template
  | .sequence genes => gapsAll genes
  | .chop _ | .copy _ | .merge | .mutate _ | .put => 0

def gapsSlot : Option Gene → Nat
  | none => 1
  | some g => gaps g

def gapsAll : List Gene → Nat
  | [] => 0
  | g :: gs => gaps g + gapsAll gs

end

/-- The creatures that a creature can take in: one for each gap, and one for each sequence. -/
def holes (g : Gene) : Nat := gaps g + g.opcodes.count .sequence

def holesSlot (slot : Option Gene) : Nat := gapsSlot slot + (opcodesSlot slot).count .sequence

def holesAll (gs : List Gene) : Nat := gapsAll gs + (opcodesAll gs).count .sequence

section
variable {q : Probability} {l r t : Option Gene} {g : Gene} {gs : List Gene}

theorem gaps_of_isLeaf : ∀ {g : Gene}, g.isLeaf = true → gaps g = 0
  | .chop _, _ | .copy _, _ | .merge, _ | .mutate _, _ | .put, _ => by rw [gaps]

theorem holes_of_isLeaf : ∀ {g : Gene}, g.isLeaf = true → holes g = 0
  | .chop _, _ | .copy _, _ | .merge, _ | .mutate _, _ | .put, _ => by simp [holes, gaps]

theorem holes_branch : holes (.branch q l r) = holesSlot l + holesSlot r := by
  simp [holes, holesSlot, gaps]
  omega

theorem holes_get : holes (.get t) = holesSlot t := by
  simp [holes, holesSlot, gaps]

theorem holes_sequence : holes (.sequence gs) = holesAll gs + 1 := by
  simp [holes, holesAll, gaps]
  omega

theorem holesAll_cons : holesAll (g :: gs) = holes g + holesAll gs := by
  simp [holes, holesAll, gapsAll]
  omega

theorem gapsAll_insertIdx : ∀ {i : Nat} {gs : List Gene}, i ≤ gs.length →
    gapsAll (gs.insertIdx i g) = gaps g + gapsAll gs
  | 0, _, _ => by rw [List.insertIdx_zero, gapsAll]
  | i + 1, h :: gs, hi => by
    rw [List.insertIdx_succ_cons, gapsAll, gapsAll_insertIdx (Nat.le_of_succ_le_succ hi), gapsAll]
    omega

end

def Sated (gaps holes : Nat) (us : Multiset Gene) : Prop :=
  gaps = 0 ∧ us.card = holes + (us.map Program.holes).sum

section
variable {m n j k : Nat} {us vs : Multiset Gene}

theorem Sated.add (h : Sated m j us) (h' : Sated n k vs) : Sated (m + n) (j + k) (us + vs) := by
  obtain ⟨hm, hj⟩ := h
  obtain ⟨hn, hk⟩ := h'
  refine ⟨by omega, ?_⟩
  rw [Multiset.card_add, Multiset.map_add, Multiset.sum_add]
  omega

/-- A creature that has been sated fills one hole more. -/
theorem Sated.cons {c : Gene} (h : Sated m (holes c + j) us) : Sated m (j + 1) (c ::ₘ us) := by
  obtain ⟨hm, hj⟩ := h
  refine ⟨hm, ?_⟩
  rw [Multiset.card_cons, Multiset.map_cons, Multiset.sum_cons]
  omega

end

mutual

theorem Grafts.sated : ∀ {g h : Gene} {us : Multiset Gene}, Grafts False g us h →
    Sated (gaps h) (holes g) us
  | _, _, _, .leaf h => by
    rw [Sated, gaps_of_isLeaf h, holes_of_isLeaf h]
    exact ⟨rfl, rfl⟩
  | .branch .., _, _, .branch hl hr => by
    rw [gaps, holes_branch]
    exact hl.sated.add hr.sated
  | .get _, _, _, .get h => by
    rw [gaps, holes_get]
    exact h.sated
  | .sequence _, _, _, .enlarged hc hgs hi => by
    rw [gaps, gapsAll_insertIdx hi, holes_sequence]
    exact (hc.sated.add hgs.sated).cons

theorem GraftsSlot.sated : ∀ {slot x : Option Gene} {us : Multiset Gene},
    GraftsSlot False slot us x → Sated (gapsSlot x) (holesSlot slot) us
  | none, _, _, .filled (c := c) h => by
    have hsated : Sated _ (holes c + 0) _ := h.sated
    exact hsated.cons
  | some _, _, _, .kept h => h.sated

theorem GraftsAll.sated : ∀ {gs hs : List Gene} {us : Multiset Gene}, GraftsAll False gs us hs →
    Sated (gapsAll hs) (holesAll gs) us
  | [], _, _, .nil => ⟨rfl, rfl⟩
  | _ :: _, _, _, .cons h hgs => by
    rw [gapsAll, holesAll_cons]
    exact h.sated.add hgs.sated

end

/-- If grafting leaves material over, nothing is left open in what has grown, and as many creatures
were taken as there were holes in the creature and in those taken, one for each hole. -/
theorem graft_fills (g : Gene) (stack : List Gene) (s : Stream)
    (h : (graft g stack s).stack ≠ []) :
    gaps (graft g stack s).value = 0 ∧ ∃ taken, stack = taken ++ (graft g stack s).stack ∧
      Grafts False g taken (graft g stack s).value ∧
      taken.length = holes g + (taken.map holes).sum := by
  obtain ⟨taken, hstack, hgrafts⟩ := grafts_all.1 g stack s
  have hgrafts := hgrafts.mono h
  obtain ⟨hgaps, hcount⟩ := hgrafts.sated
  refine ⟨hgaps, taken, hstack, hgrafts, ?_⟩
  rwa [Multiset.coe_card, Multiset.map_coe, Multiset.sum_coe] at hcount

/-- An arm, the template that came in there and a sequence take one creature each. -/
theorem graft_fills_three :
    let g : Gene := .branch .even none (some (.sequence []))
    let stack : List Gene := [.get none, .put, .merge, .chop .even]
    let t := graft g stack (.seeded 3)
    t.stack ≠ [] ∧ gaps t.value = 0 ∧ ∃ taken, stack = taken ++ t.stack ∧
      Grafts False g taken t.value ∧ taken.length = holes g + (taken.map holes).sum := by
  intro g stack t
  let l := graftSlot (some (.get none)) [.put, .merge, .chop .even] (.seeded 3)
  have hleft : l = ⟨some (.get (some .put)), [.merge, .chop .even], .seeded 3, by decide⟩ := by
    simp [l, graftSlot, graft, fill]
  have hrest : t.stack = [.chop .even] := by
    show (graft g stack (.seeded 3)).stack = _
    rw [graft]
    show (graftSlot (some (.sequence [])) l.stack l.stream).stack = _
    rw [hleft]
    simp [graftSlot, graft, graftAll]
  have hne : t.stack ≠ [] := by
    rw [hrest]
    exact List.cons_ne_nil _ _
  exact ⟨hne, graft_fills g stack (.seeded 3) hne⟩

end Biotope.Program
