import Biotope.Proofs.Acts
import Biotope.Program.Execution

/-!
# Exchanges with the pool

A program takes creatures out of the pool and puts creatures in. Whatever else it does
leaves the pool alone and founds or ends no species, so a relation between worlds that holds
for these two operations, and goes on from step to step, holds for every program.
-/

namespace Biotope

open Act

/-! ## Events -/

inductive Event where
  | speciation (id : SpeciesId)
  | extinction (id : SpeciesId)

def Notice.event? : Notice → Option Event
  | .founded id => some (.speciation id)
  | .extinct id => some (.extinction id)
  | _ => none

/-- The speciations and extinctions so far, the first one first. -/
def World.events (w : World) : List Event := w.journal.toList.filterMap Notice.event?

theorem events_push (w : World) (n : Notice) :
    World.events { w with journal := w.journal.push n } = w.events ++ n.event?.toList := by
  cases hn : n.event? <;> simp [World.events, hn]

structure Aside (w v : World) : Prop where
  pool : v.pool = w.pool
  events : v.events = w.events

theorem Aside.refl (w : World) : Aside w w := ⟨rfl, rfl⟩

theorem Aside.trans {w u v : World} (h₁ : Aside w u) (h₂ : Aside u v) : Aside w v :=
  ⟨h₂.pool.trans h₁.pool, h₂.events.trans h₁.events⟩

theorem aside_note (w : World) {n : Notice} (h : n.event? = none) :
    Aside w { w with journal := w.journal.push n } :=
  ⟨rfl, by simp [events_push, h]⟩

theorem aside_notified (w : World) : Aside w (notified w) := by
  unfold notified
  split
  · exact aside_note w rfl
  · exact .refl w

def Passive {α : Type} (a : Act α) : Prop := ∀ w, Aside w (reached (a w))

section
variable {α β : Type}

theorem reached_bind (a : Act α) (f : α → Act β) (w : World) :
    (∃ x v, a w = .ok x v ∧ reached ((a >>= f) w) = reached (f x v)) ∨
      ∃ e v, a w = .error e v ∧ reached ((a >>= f) w) = v := by
  cases h : a w with
  | ok x v => exact .inl ⟨x, v, rfl, by rw [bind_ok h]⟩
  | error e v => exact .inr ⟨e, v, rfl, by rw [bind_error h]; rfl⟩

theorem passive_pure (x : α) : Passive (pure x) := .refl

theorem passive_bind {a : Act α} {f : α → Act β} (ha : Passive a) (hf : ∀ x, Passive (f x)) :
    Passive (a >>= f) := by
  intro w
  have hw := ha w
  rcases reached_bind a f w with ⟨x, v, hv, hr⟩ | ⟨e, v, hv, hr⟩
  · rw [hv] at hw
    rw [hr]
    exact hw.trans (hf x v)
  · rw [hv] at hw
    rw [hr]
    exact hw

theorem passive_ite {c : Prop} [Decidable c] {a b : Act α} (ha : Passive a) (hb : Passive b) :
    Passive (if c then a else b) := by
  split
  · exact ha
  · exact hb

theorem passive_draw (d : Draw α) : Passive (draw d) := fun _ => ⟨rfl, rfl⟩

theorem passive_getPool : Passive getPool := .refl

theorem passive_get : Passive (get : Act World) := .refl

theorem passive_modify {f : World → World} (h : ∀ w, Aside w (f w)) :
    Passive (modify f : Act PUnit) := h

theorem passive_push (g : Gene) : Passive (push g) := fun _ => ⟨rfl, rfl⟩

theorem passive_pop : Passive pop := by
  intro w
  unfold pop
  cases w.stack with
  | nil => exact .refl w
  | cons g gs => exact ⟨rfl, rfl⟩

theorem passive_entering {a : Act α} (ha : Passive a) : Passive (entering a) := by
  intro w
  have hw := (aside_notified w).trans (ha (notified w))
  cases h : a (notified w) with
  | ok x v =>
    rw [h] at hw
    rw [entering_ok h]
    exact hw
  | error e v =>
    rw [h] at hw
    rw [entering_error h]
    exact ⟨hw.pool, hw.events⟩

end

namespace Pool

theorem passive_flip (p : Probability) : Passive (flip p) :=
  passive_bind (passive_entering (passive_bind passive_getPool fun _ => passive_pure _)) fun _ =>
    passive_draw _

theorem passive_pick : Passive pick :=
  passive_entering (passive_bind passive_getPool fun _ => passive_draw _)

theorem passive_liveSpecies : Passive liveSpecies :=
  passive_entering (passive_bind passive_getPool fun _ => passive_pure _)

theorem passive_assign (id : SpeciesId) : Passive (assign id) := by
  unfold assign
  split
  · exact passive_pure _
  · refine passive_bind passive_get fun w => ?_
    cases w.service with
    | chance => exact passive_pure _
    | closed => exact passive_pure _
    | turns limit served =>
      refine passive_ite (passive_pure _) (passive_bind passive_liveSpecies fun ids => ?_)
      cases ids[served % ids.length]? with
      | none => exact passive_pure _
      | some i =>
        refine passive_bind (passive_modify (f := ({ · with service := .turns limit (served + 1) }))
          fun _ => ⟨rfl, rfl⟩) fun _ => passive_pure _

/-- A rehearsal changes nothing but the drill. -/
theorem rehearse_cases (w : World) : ∃ d, rehearse w = .ok () { w with drill := d } ∨
    ∃ m, rehearse w = .error (.drill m) { w with drill := d } := by
  cases hd : w.drill with
  | none =>
    have h : rehearse w = .ok () w := by
      refine (bind_ok rfl).trans ?_
      simp only [hd]
      rfl
    exact ⟨w.drill, .inl h⟩
  | some d =>
    cases hl : d.left with
    | zero =>
      refine ⟨none, .inr ⟨d.message, (bind_ok rfl).trans ?_⟩⟩
      simp only [hd, hl]
      rfl
    | succ n =>
      refine ⟨some { d with left := n }, .inl ((bind_ok rfl).trans ?_)⟩
      simp only [hd, hl]
      rfl

theorem passive_rehearse : Passive rehearse := by
  intro w
  obtain ⟨d, hd | ⟨m, hd⟩⟩ := rehearse_cases w
  · rw [hd]
    exact ⟨rfl, rfl⟩
  · rw [hd]
    exact ⟨rfl, rfl⟩

end Pool

/-! ## Acts made of exchanges -/

inductive Exchanges : {α : Type} → Act α → Prop where
  | passive {α : Type} {a : Act α} (h : Passive a) : Exchanges a
  | take (id : SpeciesId) : Exchanges (Pool.take id)
  | put (g : Gene) : Exchanges (Pool.put g)
  | bind {α β : Type} {a : Act α} {f : α → Act β} (ha : Exchanges a) (hf : ∀ x, Exchanges (f x)) :
    Exchanges (a >>= f)

namespace Exchanges

variable {α : Type}

theorem pure (x : α) : Exchanges (pure x) := .passive (passive_pure x)

theorem ite {c : Prop} [Decidable c] {a b : Act α} (ha : Exchanges a) (hb : Exchanges b) :
    Exchanges (if c then a else b) := by
  split
  · exact ha
  · exact hb

theorem discard {a : Act α} (ha : Exchanges a) : Exchanges (discard a) := by
  rw [discard_eq]
  exact .bind ha fun _ => .pure _

/-- What goes on from step to step, and holds for passive acts and both operations, holds
for the whole act. -/
theorem relates {R : World → World → Prop} (trans : ∀ {w u v}, R w u → R u v → R w v)
    (aside : ∀ {w v}, Aside w v → R w v) (take : ∀ id w, R w (reached (Pool.take id w)))
    (put : ∀ g w, R w (reached (Pool.put g w))) {a : Act α} (h : Exchanges a) (w : World) :
    R w (reached (a w)) := by
  induction h generalizing w with
  | passive h => exact aside (h w)
  | take id => exact take id w
  | put g => exact put g w
  | @bind _ _ a f _ _ iha ihf =>
    have hw := iha w
    rcases reached_bind a f w with ⟨x, v, hv, hr⟩ | ⟨e, v, hv, hr⟩
    · rw [hv] at hw
      rw [hr]
      exact trans hw (ihf x v)
    · rw [hv] at hw
      rw [hr]
      exact hw

end Exchanges

theorem exchanges_request (id : SpeciesId) : Exchanges (Pool.request id) := by
  unfold Pool.request
  refine .bind (.passive (Pool.passive_assign id)) fun x => ?_
  cases x with
  | none => exact .pure _
  | some i => exact .bind (.passive Pool.passive_rehearse) fun _ => .take i

namespace Program

/-! ## Mutation -/

theorem passive_redraw (p q : Probability) : Passive (redraw p q) :=
  passive_bind (Pool.passive_flip p) fun _ => passive_ite (passive_draw _) (passive_pure _)

theorem passive_relocate (p : Probability) (genes : List Gene) : Passive (relocate p genes) := by
  unfold relocate
  split
  · refine passive_bind (Pool.passive_flip p) fun _ => passive_ite ?_ (passive_pure _)
    exact passive_bind (passive_draw _) fun _ => passive_bind (passive_draw _) fun _ => passive_pure _
  · exact passive_pure _

mutual

theorem passive_mutate (p : Probability) : ∀ g, Passive (mutate p g)
  | .branch q left right => by
    unfold mutate
    refine passive_bind (passive_mutateSlot p left) fun _ => ?_
    refine passive_bind (passive_mutateSlot p right) fun _ => ?_
    refine passive_bind (passive_redraw p q) fun _ => passive_bind (Pool.passive_flip p) fun _ => ?_
    exact passive_ite (passive_pure _) (passive_pure _)
  | .chop q | .mutate q => by
    unfold mutate
    exact passive_bind (passive_redraw p q) fun _ => passive_pure _
  | .copy _ | .merge | .put => by
    unfold mutate
    exact passive_pure _
  | .get template => by
    unfold mutate
    exact passive_bind (passive_mutateSlot p template) fun _ => passive_pure _
  | .sequence genes => by
    unfold mutate
    refine passive_bind (passive_mutateAll p genes) fun items => ?_
    exact passive_bind (passive_relocate p items) fun _ => passive_pure _

theorem passive_mutateSlot (p : Probability) : ∀ slot, Passive (mutateSlot p slot)
  | none => by
    unfold mutateSlot
    exact passive_pure _
  | some child => by
    unfold mutateSlot
    exact passive_bind (passive_mutate p child) fun _ => passive_pure _

theorem passive_mutateAll (p : Probability) : ∀ items, Passive (mutateAll p items)
  | [] => by
    unfold mutateAll
    exact passive_pure _
  | item :: items => by
    unfold mutateAll
    refine passive_bind (passive_mutate p item) fun _ => ?_
    exact passive_bind (passive_mutateAll p items) fun _ => passive_pure _

end

/-! ## Pruning -/

mutual

theorem exchanges_prune (p : Probability) : ∀ g, Exchanges (prune p g)
  | .branch q left right => by
    unfold prune
    exact .bind (exchanges_pruneSlot p left) fun _ =>
      .bind (exchanges_pruneSlot p right) fun _ => .pure _
  | .sequence genes => by
    unfold prune
    exact .bind (exchanges_pruneAll p genes) fun _ => .pure _
  | .chop _ | .copy _ | .get _ | .merge | .mutate _ | .put => by
    unfold prune
    exact .pure _

theorem exchanges_pruneSlot (p : Probability) : ∀ slot, Exchanges (pruneSlot p slot)
  | none => by
    unfold pruneSlot
    exact .pure _
  | some child => by
    unfold pruneSlot
    refine .bind (exchanges_prune p child) fun c => .bind (.passive (Pool.passive_flip p)) fun _ => ?_
    exact .ite (.bind (.put c) fun _ => .pure _) (.pure _)

theorem exchanges_pruneAll (p : Probability) : ∀ items, Exchanges (pruneAll p items)
  | [] => by
    unfold pruneAll
    exact .pure _
  | item :: items => by
    unfold pruneAll
    refine .bind (exchanges_prune p item) fun c => .bind (.passive (Pool.passive_flip p)) fun _ => ?_
    exact .ite (.bind (.put c) fun _ => exchanges_pruneAll p items)
      (.bind (exchanges_pruneAll p items) fun _ => .pure _)

end

/-! ## Replication -/

theorem exchanges_supply (o : Opcode) : Exchanges (supply o) := by
  unfold supply
  refine .bind (exchanges_request _) fun x => ?_
  cases x with
  | none => exact .pure _
  | some fresh => exact .ite (.pure _) (.bind (.put fresh) fun _ => .pure _)

mutual

theorem exchanges_replicate (p : Probability) : ∀ g, Exchanges (replicate p g)
  | .branch q left right => by
    unfold replicate
    refine .bind (exchanges_supply _) fun x => ?_
    cases x with
    | none => exact .pure _
    | some _ =>
      exact .bind (exchanges_replicateSlot p left) fun _ =>
        .bind (exchanges_replicateSlot p right) fun _ => .pure _
  | .chop _ | .copy _ | .mutate _ => by
    unfold replicate
    exact .bind (exchanges_supply _) fun _ => .pure _
  | .merge | .put => by
    unfold replicate
    exact exchanges_supply _
  | .get template => by
    unfold replicate
    refine .bind (exchanges_supply _) fun x => ?_
    cases x with
    | none => exact .pure _
    | some _ => exact .bind (exchanges_replicateTemplate p template) fun _ => .pure _
  | .sequence genes => by
    unfold replicate
    refine .bind (exchanges_supply _) fun x => ?_
    cases x with
    | none => exact .pure _
    | some _ => exact .bind (exchanges_replicateAll p genes) fun _ => .pure _

theorem exchanges_replicateSlot (p : Probability) : ∀ slot, Exchanges (replicateSlot p slot)
  | none => by
    unfold replicateSlot
    exact .pure _
  | some child => by
    unfold replicateSlot
    exact .bind (.passive (Pool.passive_flip p)) fun _ => .ite (exchanges_replicate p child) (.pure _)

theorem exchanges_replicateTemplate (p : Probability) :
    ∀ template, Exchanges (replicateTemplate p template)
  | none => by
    unfold replicateTemplate
    exact .pure _
  | some template => by
    unfold replicateTemplate
    exact exchanges_replicate p template

theorem exchanges_replicateAll (p : Probability) : ∀ items, Exchanges (replicateAll p items)
  | [] => by
    unfold replicateAll
    exact .pure _
  | item :: items => by
    unfold replicateAll
    refine .bind (.passive (Pool.passive_flip p)) fun _ => .ite ?_ (exchanges_replicateAll p items)
    refine .bind (exchanges_replicate p item) fun x => ?_
    cases x with
    | none => exact exchanges_replicateAll p items
    | some _ => exact .bind (exchanges_replicateAll p items) fun _ => .pure _

end

/-! ## Whole programs -/

theorem passive_mergeTop : Passive mergeTop := by
  intro w
  unfold mergeTop
  split
  · exact ⟨rfl, rfl⟩
  · exact .refl w

mutual

theorem exchanges_run : ∀ g, Exchanges (run g)
  | .branch p left right => by
    unfold run
    exact .bind (.passive (passive_draw _)) fun _ => .ite (exchanges_runSlot left) (exchanges_runSlot right)
  | .chop p => by
    unfold run
    refine .bind (.passive passive_pop) fun x => ?_
    cases x with
    | none => exact .pure _
    | some top => exact .bind (exchanges_prune p top) fun _ => .passive (passive_push _)
  | .copy p => by
    unfold run
    refine .bind (.passive passive_pop) fun x => ?_
    cases x with
    | none => exact .pure _
    | some top =>
      refine .bind (exchanges_replicate p top) fun y => .bind (.passive (passive_push top)) fun _ => ?_
      cases y with
      | none => exact .pure _
      | some copy => exact .passive (passive_push copy)
  | .get none => by
    unfold run
    exact .pure _
  | .get (some template) => by
    unfold run
    refine .bind (exchanges_request _) fun x => ?_
    cases x with
    | none => exact .pure _
    | some creature => exact .passive (passive_push creature)
  | .merge => by
    unfold run
    exact .passive passive_mergeTop
  | .mutate p => by
    unfold run
    refine .bind (.passive passive_pop) fun x => ?_
    cases x with
    | none => exact .pure _
    | some top => exact .bind (.passive (passive_mutate p top)) fun _ => .passive (passive_push _)
  | .put => by
    unfold run
    refine .bind (.passive passive_pop) fun x => ?_
    cases x with
    | none => exact .pure _
    | some top => exact .put top
  | .sequence genes => by
    unfold run
    exact exchanges_runAll genes

theorem exchanges_runSlot : ∀ slot, Exchanges (runSlot slot)
  | none => by
    unfold runSlot
    exact .pure _
  | some g => by
    unfold runSlot
    exact exchanges_run g

theorem exchanges_runAll : ∀ genes, Exchanges (runAll genes)
  | [] => by
    unfold runAll
    exact .pure _
  | g :: gs => by
    unfold runAll
    exact .bind (exchanges_run g) fun _ => exchanges_runAll gs

end

theorem exchanges_returnAll : ∀ gs, Exchanges (returnAll gs)
  | [] => .pure _
  | g :: gs => by
    unfold returnAll
    exact .bind (.passive (passive_modify (f := ({ · with stack := gs })) fun _ => ⟨rfl, rfl⟩))
      fun _ => .bind (.put g) fun _ => exchanges_returnAll gs

theorem exchanges_reset : Exchanges reset :=
  .bind (.passive passive_get) fun w => exchanges_returnAll w.stack

end Program

end Biotope
