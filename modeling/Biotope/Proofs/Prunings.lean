import Biotope.Program.Pruning
import Biotope.Proofs.Replicas
import Biotope.Proofs.Returns
import Biotope.Proofs.Tosses

/-!
# Prunings

Pruning tosses for every child outside templates, children before their parents, and releases
those that lose, each as it is by then. What happens depends on the pool only through the tosses:
with the same outcomes the same creatures are released and the same one is left.
-/

namespace Biotope.Program

open Act

/-! ## Deeds -/

inductive Deed where
  /-- A toss on whether the child is cut off. -/
  | toss (child : Gene) (yes : Bool)
  | release (creature : Gene)

def tosses : List Deed → List (Gene × Bool) :=
  List.filterMap fun
    | .toss child yes => some (child, yes)
    | .release _ => none

inductive Done (p : Probability) : Deed → World → World → Prop where
  | toss {child : Gene} {yes : Bool} {w v : World} (h : Pool.flip p w = .ok yes v) :
      Done p (.toss child yes) w v
  | release {g : Gene} {w v : World} (h : Pool.put g w = .ok () v) : Done p (.release g) w v

inductive Enacted (p : Probability) : List Deed → World → World → Prop where
  | nil {w : World} : Enacted p [] w w
  | cons {d : Deed} {ds : List Deed} {w u v : World} (h : Done p d w u) (hs : Enacted p ds u v) :
      Enacted p (d :: ds) w v

/-- The deeds are enacted up to a release for which the gauges have no room. -/
def Broken (p : Probability) (ds : List Deed) (w v : World) : Prop :=
  ∃ es g fs u, ds = es ++ .release g :: fs ∧ Enacted p es w u ∧ ¬ Pool.Room g u.pool ∧
    Pool.put g u = .error .sumOverflow v

section
variable {p : Probability} {ds es : List Deed} {w u v : World}

theorem tosses_append : tosses (ds ++ es) = tosses ds ++ tosses es := List.filterMap_append

theorem enacted_append : Enacted p (ds ++ es) w v ↔ ∃ u, Enacted p ds w u ∧ Enacted p es u v := by
  constructor
  · intro h
    induction ds generalizing w with
    | nil => exact ⟨w, .nil, h⟩
    | cons d ds ih =>
      cases h with
      | cons h hs =>
        obtain ⟨x, hx, hv⟩ := ih hs
        exact ⟨x, .cons h hx, hv⟩
  · rintro ⟨x, hx, hv⟩
    induction hx with
    | nil => exact hv
    | cons h _ ih => exact .cons h (ih hv)

theorem enacted_nil : Enacted p [] w v ↔ w = v := by
  constructor
  · rintro ⟨⟩
    rfl
  · rintro rfl
    exact .nil

theorem enacted_singleton {d : Deed} : Enacted p [d] w v ↔ Done p d w v := by
  constructor
  · intro h
    cases h with
    | cons h hs =>
      obtain rfl := enacted_nil.mp hs
      exact h
  · exact fun h => .cons h .nil

theorem Broken.append (h : Broken p ds w v) : Broken p (ds ++ es) w v := by
  obtain ⟨done, g, rest, u, rfl, h⟩ := h
  exact ⟨done, g, rest ++ es, u, by simp, h⟩

theorem Enacted.broken (h : Enacted p ds w u) (hb : Broken p es u v) : Broken p (ds ++ es) w v := by
  obtain ⟨done, g, rest, x, rfl, hx, hg⟩ := hb
  exact ⟨ds ++ done, g, rest, x, by simp, enacted_append.mpr ⟨u, h, hx⟩, hg⟩

end

/-! ## Courses -/

/-- The act takes one of the courses, each a list of deeds with a result, and each course can be
the one. It breaks off only where the course does. -/
structure Follows {α : Type} (p : Probability) (a : Act α) (C : List Deed → α → Prop) : Prop where
  possible : ∃ ds x, C ds x
  ok_iff : ∀ w x v, a w = .ok x v ↔ ∃ ds, C ds x ∧ Enacted p ds w v
  of_error : ∀ w e v, a w = .error e v → e = .sumOverflow ∧ ∃ ds x, C ds x ∧ Broken p ds w v

section
variable {α β : Type} {p : Probability} {a b : Act α} {C D : List Deed → α → Prop}

theorem Follows.congr (h : Follows p a C) (hcd : ∀ ds x, C ds x ↔ D ds x) : Follows p a D := by
  obtain rfl : C = D := funext fun ds => funext fun x => propext (hcd ds x)
  exact h

theorem follows_pure (x : α) : Follows p (pure x) fun ds y => ds = [] ∧ y = x := by
  refine ⟨⟨[], x, rfl, rfl⟩, fun w y v => ?_, fun w e v h => by cases h⟩
  constructor
  · intro h
    obtain ⟨rfl, rfl⟩ := of_pure_ok h
    exact ⟨[], ⟨rfl, rfl⟩, .nil⟩
  · rintro ⟨ds, ⟨rfl, rfl⟩, hds⟩
    obtain rfl := enacted_nil.mp hds
    rfl

theorem follows_bind {f : α → Act β} {E : α → List Deed → β → Prop} (ha : Follows p a C)
    (hf : ∀ x, Follows p (f x) (E x)) :
    Follows p (a >>= f) fun ds y => ∃ es x fs, ds = es ++ fs ∧ C es x ∧ E x fs y := by
  refine ⟨?_, fun w y v => ⟨fun h => ?_, ?_⟩, fun w e v h => ?_⟩
  · obtain ⟨es, x, hx⟩ := ha.possible
    obtain ⟨fs, y, hy⟩ := (hf x).possible
    exact ⟨_, y, es, x, fs, rfl, hx, hy⟩
  · obtain ⟨x, u, hx, hy⟩ := of_bind_ok h
    obtain ⟨es, hes, hu⟩ := (ha.ok_iff w x u).mp hx
    obtain ⟨fs, hfs, hv⟩ := ((hf x).ok_iff u y v).mp hy
    exact ⟨_, ⟨es, x, fs, rfl, hes, hfs⟩, enacted_append.mpr ⟨u, hu, hv⟩⟩
  · rintro ⟨_, ⟨es, x, fs, rfl, hes, hfs⟩, hds⟩
    obtain ⟨u, hu, hv⟩ := enacted_append.mp hds
    exact (bind_ok ((ha.ok_iff w x u).mpr ⟨es, hes, hu⟩)).trans
      (((hf x).ok_iff u y v).mpr ⟨fs, hfs, hv⟩)
  · cases hx : a w with
    | ok x u =>
      obtain ⟨es, hes, hu⟩ := (ha.ok_iff w x u).mp hx
      obtain ⟨he, fs, y, hfs, hv⟩ := (hf x).of_error u e v ((bind_ok hx).symm.trans h)
      exact ⟨he, _, y, ⟨es, x, fs, rfl, hes, hfs⟩, hu.broken hv⟩
    | error e' u =>
      cases (bind_error hx).symm.trans h
      obtain ⟨he, es, x, hes, hv⟩ := ha.of_error w e v hx
      obtain ⟨fs, y, hfs⟩ := (hf x).possible
      exact ⟨he, _, y, ⟨es, x, fs, rfl, hes, hfs⟩, hv.append⟩

theorem follows_map (ha : Follows p a C) (f : α → β) :
    Follows p (a >>= fun x => pure (f x)) fun ds y => ∃ x, y = f x ∧ C ds x := by
  refine (follows_bind ha fun x => follows_pure (f x)).congr fun ds y => ⟨?_, ?_⟩
  · rintro ⟨es, x, fs, rfl, hx, rfl, rfl⟩
    rw [List.append_nil]
    exact ⟨x, rfl, hx⟩
  · rintro ⟨x, rfl, hx⟩
    exact ⟨ds, x, [], (List.append_nil ds).symm, hx, rfl, rfl⟩

theorem follows_flip (p : Probability) (child : Gene) :
    Follows p (Pool.flip p) fun ds yes => ds = [.toss child yes] := by
  refine ⟨⟨_, true, rfl⟩, fun w yes v => ?_, fun w e v h => ?_⟩
  · constructor
    · exact fun h => ⟨_, rfl, enacted_singleton.mpr (.toss h)⟩
    · rintro ⟨ds, rfl, hds⟩
      cases enacted_singleton.mp hds with
      | toss h => exact h
  · obtain ⟨yes, u, hu, -⟩ := Pool.calm_flip p w
    rw [hu] at h
    cases h

theorem follows_put (p : Probability) (g : Gene) :
    Follows p (Pool.put g) fun ds _ => ds = [.release g] := by
  refine ⟨⟨_, (), rfl⟩, fun w u v => ?_, fun w e v h => ?_⟩
  · constructor
    · exact fun h => ⟨_, rfl, enacted_singleton.mpr (.release h)⟩
    · rintro ⟨ds, rfl, hds⟩
      cases enacted_singleton.mp hds with
      | release h => exact h
  · obtain ⟨rfl, hroom⟩ := Pool.of_put_error_room h
    exact ⟨rfl, _, (), rfl, [], g, [], w, rfl, .nil, hroom, h⟩

/-- After a toss for the child one goes on in one of two ways. -/
theorem follows_toss (child : Gene) (ha : Follows p a C) (hb : Follows p b D) :
    Follows p (Pool.flip p >>= fun yes => if yes then a else b) fun ds x =>
      (∃ es, ds = .toss child true :: es ∧ C es x) ∨
        ∃ es, ds = .toss child false :: es ∧ D es x := by
  have hf (yes : Bool) : Follows p (if yes then a else b) fun ds x =>
      if yes then C ds x else D ds x := by
    cases yes
    · exact hb
    · exact ha
  refine (follows_bind (follows_flip p child) hf).congr fun ds x => ⟨?_, ?_⟩
  · rintro ⟨es, yes, fs, rfl, rfl, h⟩
    cases yes
    · exact .inr ⟨fs, rfl, h⟩
    · exact .inl ⟨fs, rfl, h⟩
  · rintro (⟨es, rfl, h⟩ | ⟨es, rfl, h⟩)
    · exact ⟨_, true, es, rfl, rfl, h⟩
    · exact ⟨_, false, es, rfl, rfl, h⟩

end

/-! ## Prunings -/

mutual

/-- The children that can be cut off: all below the creature but those in templates, and each
after its own. -/
def limbs : Gene → List Gene
  | .branch _ left right => limbsSlot left ++ limbsSlot right
  | .sequence genes => limbsAll genes
  | .chop _ | .copy _ | .get _ | .merge | .mutate _ | .put => []

def limbsSlot : Option Gene → List Gene
  | none => []
  | some child => limbs child ++ [child]

def limbsAll : List Gene → List Gene
  | [] => []
  | item :: items => limbs item ++ item :: limbsAll items

end

mutual

inductive Prunes : Gene → List Deed → Gene → Prop where
  | leaf {g : Gene} (h : g.isLeaf = true) : Prunes g [] g
  | get (template : Option Gene) : Prunes (.get template) [] (.get template)
  | branch {q : Probability} {l r l' r' : Option Gene} {ds es : List Deed}
      (hl : PrunesSlot l ds l') (hr : PrunesSlot r es r') :
      Prunes (.branch q l r) (ds ++ es) (.branch q l' r')
  | sequence {gs hs : List Gene} {ds : List Deed} (h : PrunesAll gs ds hs) :
      Prunes (.sequence gs) ds (.sequence hs)

inductive PrunesSlot : Option Gene → List Deed → Option Gene → Prop where
  | empty : PrunesSlot none [] none
  | kept {c c' : Gene} {ds : List Deed} (h : Prunes c ds c') :
      PrunesSlot (some c) (ds ++ [.toss c false]) (some c')
  | cut {c c' : Gene} {ds : List Deed} (h : Prunes c ds c') :
      PrunesSlot (some c) (ds ++ [.toss c true, .release c']) none

inductive PrunesAll : List Gene → List Deed → List Gene → Prop where
  | nil : PrunesAll [] [] []
  | kept {g g' : Gene} {gs hs : List Gene} {ds es : List Deed} (h : Prunes g ds g')
      (hgs : PrunesAll gs es hs) : PrunesAll (g :: gs) (ds ++ .toss g false :: es) (g' :: hs)
  | cut {g g' : Gene} {gs hs : List Gene} {ds es : List Deed} (h : Prunes g ds g')
      (hgs : PrunesAll gs es hs) :
      PrunesAll (g :: gs) (ds ++ .toss g true :: .release g' :: es) hs

end

mutual

theorem follows_prune (p : Probability) : ∀ g, Follows p (prune p g) (Prunes g)
  | .branch q left right => by
    unfold prune
    refine (follows_bind (follows_pruneSlot p left) fun l =>
      follows_map (follows_pruneSlot p right) (Gene.branch q l)).congr fun ds h => ⟨?_, ?_⟩
    · rintro ⟨es, l, fs, rfl, hl, r, rfl, hr⟩
      exact .branch hl hr
    · intro h
      cases h with
      | leaf h => cases h
      | branch hl hr => exact ⟨_, _, _, rfl, hl, _, rfl, hr⟩
  | .sequence genes => by
    unfold prune
    refine (follows_map (follows_pruneAll p genes) Gene.sequence).congr fun ds h => ⟨?_, ?_⟩
    · rintro ⟨hs, rfl, hhs⟩
      exact .sequence hhs
    · intro h
      cases h with
      | leaf h => cases h
      | sequence hhs => exact ⟨_, rfl, hhs⟩
  | .get template => by
    unfold prune
    -- a template is no limb: nothing is tossed for it
    refine (follows_pure _).congr fun ds h => ⟨?_, fun h => ?_⟩
    · rintro ⟨rfl, rfl⟩
      exact .get template
    · cases h <;> exact ⟨rfl, rfl⟩
  | .chop _ | .copy _ | .merge | .mutate _ | .put => by
    unfold prune
    refine (follows_pure _).congr fun ds h => ⟨?_, fun h => ?_⟩
    · rintro ⟨rfl, rfl⟩
      exact .leaf rfl
    · cases h
      exact ⟨rfl, rfl⟩

theorem follows_pruneSlot (p : Probability) : ∀ slot,
    Follows p (pruneSlot p slot) (PrunesSlot slot)
  | none => by
    unfold pruneSlot
    refine (follows_pure _).congr fun ds h => ⟨?_, fun h => ?_⟩
    · rintro ⟨rfl, rfl⟩
      exact .empty
    · cases h
      exact ⟨rfl, rfl⟩
  | some child => by
    unfold pruneSlot
    refine (follows_bind (follows_prune p child) fun c => follows_toss child
      (follows_map (follows_put p c) fun _ => none) (follows_pure (some c))).congr
      fun ds h => ⟨?_, ?_⟩
    · rintro ⟨es, c, fs, rfl, hc, ⟨gs, rfl, _, rfl, rfl⟩ | ⟨gs, rfl, rfl, rfl⟩⟩
      · exact .cut hc
      · exact .kept hc
    · intro h
      cases h with
      | kept hc => exact ⟨_, _, _, rfl, hc, .inr ⟨_, rfl, rfl, rfl⟩⟩
      | cut hc => exact ⟨_, _, _, rfl, hc, .inl ⟨_, rfl, (), rfl, rfl⟩⟩

theorem follows_pruneAll (p : Probability) : ∀ items,
    Follows p (pruneAll p items) (PrunesAll items)
  | [] => by
    unfold pruneAll
    refine (follows_pure _).congr fun ds h => ⟨?_, fun h => ?_⟩
    · rintro ⟨rfl, rfl⟩
      exact .nil
    · cases h
      exact ⟨rfl, rfl⟩
  | item :: items => by
    unfold pruneAll
    refine (follows_bind (follows_prune p item) fun g => follows_toss item
      (follows_bind (follows_put p g) fun _ => follows_pruneAll p items)
      (follows_map (follows_pruneAll p items) (g :: ·))).congr fun ds h => ⟨?_, ?_⟩
    · rintro ⟨es, g, fs, rfl, hg, ⟨_, rfl, _, _, gs, rfl, rfl, hgs⟩ | ⟨gs, rfl, _, rfl, hgs⟩⟩
      · exact .cut hg hgs
      · exact .kept hg hgs
    · intro h
      cases h with
      | kept hg hgs => exact ⟨_, _, _, rfl, hg, .inr ⟨_, rfl, _, rfl, hgs⟩⟩
      | cut hg hgs => exact ⟨_, _, _, rfl, hg, .inl ⟨_, rfl, _, (), _, rfl, rfl, hgs⟩⟩

end

/-! ## Tosses of a pruning -/

mutual

theorem Prunes.tosses_eq : ∀ {g h : Gene} {ds : List Deed}, Prunes g ds h →
    (tosses ds).map Prod.fst = limbs g
  | .branch .., _, _, .branch hl hr => by
    rw [tosses_append, List.map_append, hl.tosses_eq, hr.tosses_eq, limbs]
  | .sequence _, _, _, .sequence h => by rw [h.tosses_eq, limbs]
  | .get _, _, _, .get _ => by rw [limbs]; rfl
  | .chop _, _, _, .leaf _ | .copy _, _, _, .leaf _ | .merge, _, _, .leaf _
  | .mutate _, _, _, .leaf _ | .put, _, _, .leaf _ => by rw [limbs]; rfl

theorem PrunesSlot.tosses_eq : ∀ {slot x : Option Gene} {ds : List Deed}, PrunesSlot slot ds x →
    (tosses ds).map Prod.fst = limbsSlot slot
  | none, _, _, .empty => rfl
  | some _, _, _, .kept h | some _, _, _, .cut h => by
    rw [tosses_append, List.map_append, h.tosses_eq, limbsSlot]
    rfl

theorem PrunesAll.tosses_eq : ∀ {gs hs : List Gene} {ds : List Deed}, PrunesAll gs ds hs →
    (tosses ds).map Prod.fst = limbsAll gs
  | [], _, _, .nil => rfl
  | _ :: _, _, _, .kept h hgs | _ :: _, _, _, .cut h hgs => by
    rw [tosses_append, List.map_append, h.tosses_eq, limbsAll, ← hgs.tosses_eq]
    rfl

end

theorem tosses_append_inj {ds es ds' es' : List Deed} {gs : List Gene}
    (hds : (tosses ds).map Prod.fst = gs) (hds' : (tosses ds').map Prod.fst = gs)
    (h : tosses (ds' ++ es') = tosses (ds ++ es)) :
    tosses ds' = tosses ds ∧ tosses es' = tosses es := by
  rw [tosses_append, tosses_append] at h
  refine List.append_inj h ?_
  rw [← List.length_map Prod.fst, hds', ← hds, List.length_map]

mutual

/-- A pruning is told by the outcomes of its tosses. -/
theorem Prunes.unique : ∀ {g h k : Gene} {ds es : List Deed}, Prunes g ds h → Prunes g es k →
    tosses es = tosses ds → es = ds ∧ k = h
  | .branch .., _, _, _, _, .branch hl hr, .branch hl' hr', he => by
    obtain ⟨hel, her⟩ := tosses_append_inj hl.tosses_eq hl'.tosses_eq he
    obtain ⟨rfl, rfl⟩ := hl.unique hl' hel
    obtain ⟨rfl, rfl⟩ := hr.unique hr' her
    exact ⟨rfl, rfl⟩
  | .sequence _, _, _, _, _, .sequence h, .sequence h', he => by
    obtain ⟨rfl, rfl⟩ := h.unique h' he
    exact ⟨rfl, rfl⟩
  | .get _, _, _, _, _, .get _, .get _, _ => ⟨rfl, rfl⟩
  | .chop _, _, _, _, _, .leaf _, .leaf _, _ | .copy _, _, _, _, _, .leaf _, .leaf _, _
  | .merge, _, _, _, _, .leaf _, .leaf _, _ | .mutate _, _, _, _, _, .leaf _, .leaf _, _
  | .put, _, _, _, _, .leaf _, .leaf _, _ => ⟨rfl, rfl⟩

theorem PrunesSlot.unique : ∀ {slot x y : Option Gene} {ds es : List Deed}, PrunesSlot slot ds x →
    PrunesSlot slot es y → tosses es = tosses ds → es = ds ∧ y = x
  | none, _, _, _, _, .empty, .empty, _ => ⟨rfl, rfl⟩
  | some _, _, _, _, _, .kept h, h', he => by
    cases h' with
    | kept h' =>
      obtain ⟨rfl, rfl⟩ := h.unique h' (tosses_append_inj h.tosses_eq h'.tosses_eq he).1
      exact ⟨rfl, rfl⟩
    | cut h' => cases (tosses_append_inj h.tosses_eq h'.tosses_eq he).2
  | some _, _, _, _, _, .cut h, h', he => by
    cases h' with
    | kept h' => cases (tosses_append_inj h.tosses_eq h'.tosses_eq he).2
    | cut h' =>
      obtain ⟨rfl, rfl⟩ := h.unique h' (tosses_append_inj h.tosses_eq h'.tosses_eq he).1
      exact ⟨rfl, rfl⟩

theorem PrunesAll.unique : ∀ {gs hs ks : List Gene} {ds es : List Deed}, PrunesAll gs ds hs →
    PrunesAll gs es ks → tosses es = tosses ds → es = ds ∧ ks = hs
  | [], _, _, _, _, .nil, .nil, _ => ⟨rfl, rfl⟩
  | _ :: _, _, _, _, _, .kept h hgs, h', he => by
    cases h' with
    | kept h' hgs' =>
      obtain ⟨he, hes⟩ := tosses_append_inj h.tosses_eq h'.tosses_eq he
      obtain ⟨rfl, rfl⟩ := h.unique h' he
      obtain ⟨rfl, rfl⟩ := hgs.unique hgs' (List.tail_eq_of_cons_eq hes)
      exact ⟨rfl, rfl⟩
    | cut h' hgs' => cases (tosses_append_inj h.tosses_eq h'.tosses_eq he).2
  | _ :: _, _, _, _, _, .cut h hgs, h', he => by
    cases h' with
    | kept h' hgs' => cases (tosses_append_inj h.tosses_eq h'.tosses_eq he).2
    | cut h' hgs' =>
      obtain ⟨he, hes⟩ := tosses_append_inj h.tosses_eq h'.tosses_eq he
      obtain ⟨rfl, rfl⟩ := h.unique h' he
      obtain ⟨rfl, rfl⟩ := hgs.unique hgs' (List.tail_eq_of_cons_eq hes)
      exact ⟨rfl, rfl⟩

end

/-- Pruning ends just where a pruning of the creature leads to, with the creature it leaves. It
breaks off only in the middle of one, in a release for which the gauges have no room. Each
pruning tosses once for every limb, in their order, and the outcomes tell all the rest of it. -/
theorem prune_as_tossed (p : Probability) (g : Gene) :
    (∀ w h v, prune p g w = .ok h v ↔ ∃ ds, Prunes g ds h ∧ Enacted p ds w v) ∧
    (∀ w e v, prune p g w = .error e v →
      e = .sumOverflow ∧ ∃ ds h, Prunes g ds h ∧ Broken p ds w v) ∧
    ∀ ds h, Prunes g ds h → (tosses ds).map Prod.fst = limbs g ∧
      ∀ es k, Prunes g es k → tosses es = tosses ds → es = ds ∧ k = h :=
  ⟨(follows_prune p g).ok_iff, (follows_prune p g).of_error,
    fun _ _ h => ⟨h.tosses_eq, fun _ _ h' he => h.unique h' he⟩⟩

/-- An arm within an arm goes first, and the outer one goes without it. -/
theorem prune_as_tossed_nested :
    let inner : Gene := .branch .even (some .put) none
    let g : Gene := .branch .even (some inner) none
    let ds : List Deed := [.toss .put true, .release .put, .toss inner true,
      .release (.branch .even none none)]
    Prunes g ds (.branch .even none none) ∧ (tosses ds).map Prod.fst = limbs g ∧
      limbs g = [.put, inner] := by
  intro inner g ds
  have hput : PrunesSlot (some .put) [.toss .put true, .release .put] none := .cut (.leaf rfl)
  have hinner : Prunes inner _ (.branch .even none none) := .branch hput .empty
  have hprunes : Prunes g ds (.branch .even none none) := .branch (.cut hinner) .empty
  exact ⟨hprunes, ((prune_as_tossed .even g).2.2 ds _ hprunes).1, rfl⟩

/-- With the count of creatures at its end, pruning does not get to the second limb. -/
theorem prune_overfull :
    let w : World :=
      { pool :=
          { buckets := [(Gene.put.species, ⟨#[.put]⟩)], temperature := .always,
            species := .ofValue 1, creatures := .ofValue Int64.maxValue }
        stream := .seeded 3 }
    let g : Gene := .branch .even (some .put) (some .put)
    limbs g = [.put, .put] ∧ ∃ u v, Enacted .always [.toss .put true] w u ∧
      Pool.put .put u = .error .sumOverflow v ∧ prune .always g w = .error .sumOverflow v := by
  intro w g
  obtain ⟨u, hu, hundisturbed⟩ := Pool.flip_certain (w := w) rfl
  have hroom : ¬ Pool.Room .put u.pool := by
    rw [hundisturbed.pool]
    exact fun h => h.creatures rfl
  obtain ⟨v, hv⟩ := Pool.put_of_not_room hroom
  refine ⟨rfl, u, v, enacted_singleton.mpr (.toss hu), hv, ?_⟩
  unfold prune
  refine bind_error ?_
  rw [pruneSlot, prune, bind_ok (show (pure Gene.put : Act Gene) w = .ok .put w from rfl),
    bind_ok hu, if_pos rfl]
  exact bind_error hv

end Biotope.Program
