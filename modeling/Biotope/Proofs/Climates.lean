import Biotope.Proofs.Returns
import Biotope.Proofs.Temperatures

/-!
# Climates

What has happened to the species of a pool since its temperature was last set tells the
temperature. Each speciation makes the pool cooler, each extinction warmer, and nothing else
that operations and programs do moves the temperature at all.
-/

namespace Biotope

open Act

def Event.shift : Event → Probability → Probability
  | .speciation _, t => Pool.cooler t
  | .extinction _, t => Pool.warmer t

def replay (es : List Event) (t : Probability) : Probability := es.foldl (fun t e => e.shift t) t

theorem replay_append (es fs : List Event) (t : Probability) :
    replay (es ++ fs) t = replay fs (replay es t) := List.foldl_append

open Pool in
theorem Event.temperate_shift (e : Event) (t : Probability) : Temperate (e.shift t) := by
  cases e with
  | speciation id => exact temperate_cooler t
  | extinction id => exact temperate_warmer t

open Pool in
theorem temperate_replay {es : List Event} {t : Probability} (h : es ≠ [] ∨ Temperate t) :
    Temperate (replay es t) := by
  induction es generalizing t with
  | nil => exact h.resolve_left fun hne => hne rfl
  | cons e es ih => exact ih (.inr (e.temperate_shift t))

structure Moves (w v : World) (es : List Event) : Prop where
  events : v.events = w.events ++ es
  temperature : v.pool.temperature = replay es w.pool.temperature

namespace Moves

variable {w u v : World} {es fs : List Event}

theorem trans (h₁ : Moves w u es) (h₂ : Moves u v fs) : Moves w v (es ++ fs) :=
  ⟨by rw [h₂.events, h₁.events, List.append_assoc],
    by rw [h₂.temperature, h₁.temperature, replay_append]⟩

theorem still (he : v.events = w.events) (ht : v.pool.temperature = w.pool.temperature) :
    Moves w v [] := ⟨by rw [he, List.append_nil], ht⟩

theorem of_aside (h : Aside w v) : Moves w v [] := still h.events (congrArg _ h.pool)

end Moves

namespace Pool

/-! ## Putting and taking -/

section
variable {α : Type} {a b : Act α} {w u : World} {bs : List (SpeciesId × Species)} {es : List Event}

/-- The act is done after the events and leaves the buckets, or it breaks off before any event. -/
def Brings (a : Act α) (w : World) (bs : List (SpeciesId × Species)) (es : List Event) : Prop :=
  (∃ x v, a w = .ok x v ∧ v.pool.buckets = bs ∧ Moves w v es) ∨
    ∃ f v, a w = .error f v ∧ Moves w v []

theorem Brings.of_still (hu : Moves w u []) (h : Brings a u bs es) (hb : b w = a u) :
    Brings b w bs es := by
  rcases h with ⟨x, v, hv, hbs, hm⟩ | ⟨f, v, hv, hm⟩
  · exact .inl ⟨x, v, hb.trans hv, hbs, by simpa using hu.trans hm⟩
  · exact .inr ⟨f, v, hb.trans hv, by simpa using hu.trans hm⟩

theorem Brings.entering (h : Brings a (notified w) bs es) : Brings (entering a) w bs es := by
  have hn := Moves.of_aside (aside_notified w)
  rcases h with ⟨x, v, hv, hbs, hm⟩ | ⟨f, v, hv, hm⟩
  · exact .inl ⟨x, v, entering_ok hv, hbs, by simpa using hn.trans hm⟩
  · have hpoison : Moves v { v with poisoned := true } [] := .still rfl rfl
    exact .inr ⟨f, _, entering_error hv, by simpa using hn.trans (hm.trans hpoison)⟩

theorem Brings.moves (h : Brings a w bs es) : ∃ fs, Moves w (reached (a w)) fs := by
  rcases h with ⟨x, v, hv, -, hm⟩ | ⟨f, v, hv, hm⟩
  · exact ⟨es, by rw [hv]; exact hm⟩
  · exact ⟨[], by rw [hv]; exact hm⟩

end

theorem count_brings (t : Tally) (c : Counting Int64) (w : World) :
    Brings (discard (count t c)) w w.pool.buckets [] := by
  have hset (g : Gauge) : (w.pool.setGauge t g).buckets = w.pool.buckets ∧
      Moves w { w with pool := w.pool.setGauge t g } [] := by
    cases t <;> exact ⟨rfl, .still rfl rfl⟩
  cases hc : c (w.pool.gauge t) with
  | ok n g => exact .inl ⟨_, _, count_ok hc, hset g⟩
  | error f g => exact .inr ⟨f, _, count_error hc, (hset g).2⟩

/-- A new species is announced after it has been counted, and then the pool is cooler. -/
theorem brings_register (id : SpeciesId) (new : Bool) (w : World) :
    Brings (register id new) w w.pool.buckets (if new then [.speciation id] else []) := by
  unfold register
  rcases count_brings .creatures Gauge.increment w with ⟨_, u, hu, hbs, hm⟩ | ⟨f, u, hu, hm⟩
  · cases new with
    | false => exact .inl ⟨(), u, bind_ok hu, hbs, hm⟩
    | true =>
      rcases count_brings .species Gauge.increment u with ⟨_, v, hv, hbs', hm'⟩ | ⟨f, v, hv, hm'⟩
      · have hpush : Moves v _ [.speciation id] :=
          ⟨events_push { v with pool := v.pool.cool } (.founded id), rfl⟩
        exact .inl ⟨(), _, (bind_ok hu).trans (bind_ok hv), hbs'.trans hbs,
          (hm.trans hm').trans hpush⟩
      · exact .inr ⟨f, v, (bind_ok hu).trans (bind_error hv), hm.trans hm'⟩
  · exact .inr ⟨f, u, bind_error hu, hm⟩

def founding (g : Gene) (p : Pool) : List Event :=
  if (p.find? g.species).isNone then [.speciation g.species] else []

theorem brings_insert (g : Gene) (w : World) :
    Brings (insert g) w (w.pool.shelve g).buckets (founding g w.pool) := by
  have hset : Moves w { w with pool := w.pool.shelve g, filed := g :: w.filed } [] := .still rfl rfl
  exact .of_still hset (brings_register g.species _ _) (insert_eq g w)

theorem brings_put (g : Gene) (w : World) :
    Brings (put g) w (w.pool.shelve g).buckets (founding g w.pool) := by
  have h := brings_insert g (notified w)
  rw [notified_pool] at h
  exact h.entering

/-- The bucket that has lost its last member goes before the extinction is announced. -/
theorem brings_release (id : SpeciesId) (g : Gene) (rest : Species) (w : World) :
    Brings (release id g rest) w
      (if rest.isExtinct then (w.pool.eraseBucket id).buckets else w.pool.buckets)
      (if rest.isExtinct then [.extinction id] else []) := by
  unfold release
  rcases count_brings .creatures Gauge.decrement w with ⟨_, u, hu, hbs, hm⟩ | ⟨f, u, hu, hm⟩
  · by_cases hx : rest.isExtinct = true
    · simp only [if_pos hx]
      have herase : Moves u { u with pool := u.pool.eraseBucket id } [] := .still rfl rfl
      rcases count_brings .species Gauge.decrement { u with pool := u.pool.eraseBucket id } with
        ⟨_, v, hv, hbs', hm'⟩ | ⟨f, v, hv, hm'⟩
      · have hpush : Moves v _ [.extinction id] :=
          ⟨events_push { v with pool := v.pool.heat } (.extinct id), rfl⟩
        refine .inl ⟨some g, _, (bind_ok hu).trans ((bind_ok rfl).trans (bind_ok hv)), ?_,
          (hm.trans (herase.trans hm')).trans hpush⟩
        refine hbs'.trans ?_
        simp only [eraseBucket, hbs]
      · exact .inr ⟨f, v, (bind_ok hu).trans ((bind_ok rfl).trans (bind_error hv)),
          hm.trans (herase.trans hm')⟩
    · simp only [if_neg hx]
      exact .inl ⟨some g, u, bind_ok hu, hbs, hm⟩
  · exact .inr ⟨f, u, bind_error hu, hm⟩

/-- How a request for a creature ends, and what happens to a species by it. -/
inductive Drawn (w : World) : EStateM.Result Fault World (Option Gene) → Prop
  | missed {v : World} (h : Aside w v) : Drawn w (.ok none v)
  | left {v : World} {id : SpeciesId} {s rest : Species} {g : Gene} (hs : w.pool.find? id = some s)
      (hbag : s.bag = g ::ₘ rest.bag) (hrest : rest.bag ≠ 0) (hv : v.pool.find? id = some rest)
      (hm : Moves w v []) : Drawn w (.ok (some g) v)
  | ended {v : World} {id : SpeciesId} {s : Species} {g : Gene} (hs : w.pool.find? id = some s)
      (hbag : s.bag = {g}) (hv : v.pool.find? id = none) (hm : Moves w v [.extinction id]) :
      Drawn w (.ok (some g) v)
  | brokenOff {f : Fault} {v : World} (hm : Moves w v []) : Drawn w (.error f v)

theorem find?_congr {p q : Pool} (h : p.buckets = q.buckets) (id : SpeciesId) :
    p.find? id = q.find? id := by
  rw [find?, find?, h]

theorem find?_eraseBucket (p : Pool) (id : SpeciesId) : (p.eraseBucket id).find? id = none := by
  simp [find?, eraseBucket]

theorem bag_eq_zero_iff {s : Species} : s.bag = 0 ↔ s.isExtinct = true := by
  simp [Species.bag, Species.isExtinct]

theorem of_release_ok {id : SpeciesId} {g : Gene} {rest : Species} {w v : World} {x : Option Gene}
    (h : release id g rest w = .ok x v) : x = some g := by
  obtain ⟨_, u, -, h⟩ := of_bind_ok h
  by_cases hx : rest.isExtinct = true
  · rw [if_pos hx] at h
    obtain ⟨_, u, -, h⟩ := of_bind_ok h
    obtain ⟨_, u, -, h⟩ := of_bind_ok h
    cases h
    rfl
  · rw [if_neg hx] at h
    cases h
    rfl

theorem takeFrom_drawn {id : SpeciesId} {s : Species} {w : World} (hs : w.pool.find? id = some s) :
    Drawn w (takeFrom id s w) := by
  by_cases hempty : s.members = #[]
  · rw [takeFrom_of_empty hempty]
    exact .missed ⟨rfl, rfl⟩
  · obtain ⟨g, rest, τ, hselect, hbag⟩ := Species.select_eq hempty w.stream
    have hset : Moves w { w with stream := τ, pool := w.pool.setBucket id rest } [] := .still rfl rfl
    rcases Brings.of_still hset (brings_release id g rest _) (takeFrom_eq hselect) with
      ⟨x, v, hv, hbs, hm⟩ | ⟨f, v, hv, hm⟩
    · rw [hv]
      rw [takeFrom_eq hselect] at hv
      cases of_release_ok hv
      by_cases hx : rest.isExtinct = true
      · rw [if_pos hx] at hbs hm
        refine .ended hs (by rw [hbag, bag_eq_zero_iff.mpr hx]; rfl) ?_ hm
        rw [find?_congr hbs]
        exact find?_eraseBucket _ id
      · rw [if_neg hx] at hbs hm
        refine .left hs hbag (fun hrest => hx (bag_eq_zero_iff.mp hrest)) ?_ hm
        rw [find?_congr hbs, find?_setBucket, if_pos rfl]
    · rw [hv]
      exact .brokenOff hm

theorem Drawn.of_aside {w u : World} (h : Aside w u) {r : EStateM.Result Fault World (Option Gene)}
    (hr : Drawn u r) : Drawn w r := by
  have hm {v : World} {es : List Event} (hm : Moves u v es) : Moves w v es := by
    simpa using (Moves.of_aside h).trans hm
  cases hr with
  | missed h' => exact .missed (h.trans h')
  | left hs hbag hrest hv h' => exact .left (h.pool ▸ hs) hbag hrest hv (hm h')
  | ended hs hbag hv h' => exact .ended (h.pool ▸ hs) hbag hv (hm h')
  | brokenOff h' => exact .brokenOff (hm h')

theorem Drawn.entering {a : Act (Option Gene)} {w : World} (h : Drawn (notified w) (a (notified w))) :
    Drawn w (entering a w) := by
  have h := h.of_aside (aside_notified w)
  rw [entering_eq]
  generalize a (notified w) = r at h
  cases h with
  | missed h => exact .missed h
  | left hs hbag hrest hv hm => exact .left hs hbag hrest hv hm
  | ended hs hbag hv hm => exact .ended hs hbag hv hm
  | brokenOff hm => exact .brokenOff ⟨hm.events, hm.temperature⟩

theorem take_drawn (id : SpeciesId) (w : World) : Drawn w (take id w) := by
  rw [take_eq]
  apply Drawn.entering
  rw [bind_ok (a := getPool) rfl]
  by_cases he : (notified w).pool.buckets.isEmpty = true
  · rw [if_pos he]
    exact .missed (.refl _)
  · rw [if_neg he]
    cases hc : chosen id (notified w).pool (notified w).stream with
    | mk i τ =>
      rw [bind_ok (draw_ok hc)]
      have haside : Aside (notified w) { notified w with stream := τ } := ⟨rfl, rfl⟩
      unfold takeAt
      cases hs : (notified w).pool.find? i with
      | none => exact .missed haside
      | some s => exact .of_aside haside (takeFrom_drawn hs)

theorem Drawn.moves {w : World} {r : EStateM.Result Fault World (Option Gene)} (h : Drawn w r) :
    ∃ es, Moves w (reached r) es := by
  cases h with
  | missed h => exact ⟨[], .of_aside h⟩
  | left _ _ _ _ hm | ended _ _ _ hm | brokenOff hm => exact ⟨_, hm⟩

end Pool

/-! ## Programs and seedings -/

def Weathers {α : Type} (a : Act α) : Prop := ∀ w, ∃ es, Moves w (reached (a w)) es

theorem Exchanges.weathers {α : Type} {a : Act α} (h : Exchanges a) : Weathers a := by
  refine h.relates (R := fun w v => ∃ es, Moves w v es) ?_ ?_ ?_ ?_
  · rintro w u v ⟨es, h₁⟩ ⟨fs, h₂⟩
    exact ⟨es ++ fs, h₁.trans h₂⟩
  · exact fun h => ⟨[], .of_aside h⟩
  · exact fun id w => (Pool.take_drawn id w).moves
  · exact fun g w => (Pool.brings_put g w).moves

theorem weathers_bind {α β : Type} {a : Act α} {f : α → Act β} (ha : Weathers a)
    (hf : ∀ x, Weathers (f x)) : Weathers (a >>= f) := by
  intro w
  obtain ⟨es, hes⟩ := ha w
  rcases reached_bind a f w with ⟨x, v, hv, hr⟩ | ⟨e, v, hv, hr⟩
  · rw [hv] at hes
    obtain ⟨fs, hfs⟩ := hf x v
    exact ⟨es ++ fs, by rw [hr]; exact hes.trans hfs⟩
  · rw [hv] at hes
    exact ⟨es, by rw [hr]; exact hes⟩

theorem weathers_still {α : Type} {a : Act α} (h : ∀ w, (reached (a w)).events = w.events ∧
    (reached (a w)).pool.temperature = w.pool.temperature) : Weathers a :=
  fun w => ⟨[], .still (h w).1 (h w).2⟩

theorem weathers_passive {α : Type} {a : Act α} (h : Passive a) : Weathers a :=
  fun w => ⟨[], .of_aside (h w)⟩

namespace Pool

theorem weathers_grown (g : Grower) (source : TemplateSource) : Weathers (grown g source) := by
  apply weathers_still
  intro w
  unfold grown
  split <;> exact ⟨rfl, rfl⟩

theorem weathers_insert (g : Gene) : Weathers (insert g) := fun w => (brings_insert g w).moves

theorem weathers_grownAll (g : Grower) (n : Nat) : Weathers (grownAll g n) := by
  induction n with
  | zero => exact weathers_passive (passive_pure _)
  | succ n ih =>
    apply weathers_bind (weathers_grown g _)
    intro c
    exact weathers_bind ih fun _ => weathers_passive (passive_pure _)

theorem weathers_insertAll (gs : List Gene) : Weathers (insertAll gs) := by
  induction gs with
  | nil => exact weathers_passive (passive_pure _)
  | cons g gs ih => exact weathers_bind (weathers_insert g) fun _ => ih

theorem weathers_settle (g : Grower) (n : Nat) : Weathers (settle g n) := by
  induction n with
  | zero => exact weathers_passive (passive_pure _)
  | succ n ih =>
    apply weathers_bind (weathers_passive passive_getPool)
    intro p
    apply weathers_bind (weathers_grown g _)
    intro c
    exact weathers_bind (weathers_insert _) fun _ => ih

theorem weathers_resetMarks : Weathers (modifyPool Pool.resetMarks) :=
  weathers_still fun _ => ⟨rfl, rfl⟩

theorem weathers_close : Weathers close :=
  weathers_bind weathers_resetMarks fun _ => weathers_bind (weathers_passive passive_getPool)
    fun _ => weathers_passive fun w => aside_note w rfl

theorem weathers_sow (n : Nat) (g : Grower) : Weathers (sow n g) := by
  unfold sow
  cases g.policy with
  | template =>
    exact weathers_bind (weathers_grownAll g n) fun _ =>
      weathers_bind (weathers_insertAll _) fun _ => weathers_close
  | existingSpecies => exact weathers_bind (weathers_settle g n) fun _ => weathers_close

structure Started (t : Probability) (w v : World) (es : List Event) : Prop where
  events : v.events = w.events ++ es
  temperature : v.pool.temperature = replay es t

theorem events_entering {α : Type} (a : Act α) (w : World) :
    (reached (entering a w)).events = (reached (a (notified w))).events := by
  cases h : a (notified w) with
  | ok x v => rw [entering_ok h]
  | error f v => rw [entering_error h]; rfl

theorem seed_started (n : Nat) (t : Probability) (g : Grower) (w : World) :
    ∃ es, Started t w (reached (seed n t g w)) es := by
  obtain ⟨es, hm⟩ := weathers_sow n g { notified w with pool := { temperature := t } }
  have hn := (aside_notified w).events
  refine ⟨es, ?_, ?_⟩
  · rw [seed_eq]
    refine (events_entering _ w).trans (hm.events.trans ?_)
    rw [← hn]
    rfl
  · rw [seed_eq]
    exact (congrArg Pool.temperature (reached_entering _ w)).trans hm.temperature

end Pool

/-! ## Courses -/

namespace Operation

/-- The temperature that the operation sets from outside. -/
def sets : Operation → Option Probability
  | populate _ _ _ t => some t
  | populateWith s =>
    match Pool.plan s with
    | .ok (.ok (t, _)) => some t
    | .ok (.error _) | .error _ => none
  | setTemperature t => some t
  | _ => none

theorem reached_populateWith (s : PoolSettings) (w : World) :
    reached ((populateWith s).act w) = match Pool.plan s with
      | .ok (.ok (t, g)) => reached (Pool.seed s.initialCreatures.toNat t g w)
      | .ok (.error _) | .error _ => w := by
  simp only [act, discard_eq, reached_map, Pool.seedWith]
  cases Pool.plan s with
  | error f => rfl
  | ok r =>
    cases r with
    | error e => rfl
    | ok tg => exact reached_map _ (fun _ => Except.ok ()) w

/-- An operation that sets no temperature moves it by events only. -/
theorem weathers_act {op : Operation} (h : op.sets = none) : Weathers op.act := by
  cases op with
  | populate n complexity depth temperature => cases h
  | setTemperature t => cases h
  | populateWith s =>
    intro w
    refine ⟨[], .of_aside ?_⟩
    rw [reached_populateWith]
    simp only [sets] at h
    split
    · rename_i hp
      rw [hp] at h
      cases h
    · exact .refl w
    · exact .refl w
  | put g => exact (Exchanges.put g).weathers
  | get id => exact (Exchanges.take id).discard.weathers
  | pick => exact (Exchanges.passive Pool.passive_pick).discard.weathers
  | flip p => exact (Exchanges.passive (Pool.passive_flip p)).discard.weathers
  | resetMarks =>
    intro w
    refine ⟨[], .still (aside_notified w).events ?_⟩
    show (notified w).pool.temperature = w.pool.temperature
    rw [notified_pool]
  | snapshot =>
    have hpassive : Passive Pool.takeCensus :=
      passive_entering (passive_bind passive_getPool fun _ => passive_pure _)
    exact (Exchanges.passive hpassive).discard.weathers
  | attend operands => exact weathers_passive (passive_modify fun _ => ⟨rfl, rfl⟩)
  | process g => exact (Program.exchanges_run g).weathers
  | reset => exact Program.exchanges_reset.weathers

theorem started_act {op : Operation} {t : Probability} (h : op.sets = some t) (w : World) :
    ∃ es, Pool.Started t w (reached (op.act w)) es := by
  cases op with
  | populate n complexity depth temperature =>
    cases h
    exact Pool.seed_started n t { complexity, maximumDepth := depth } w
  | setTemperature t' =>
    cases h
    exact ⟨[], by rw [List.append_nil]; exact (aside_notified w).events, rfl⟩
  | populateWith s =>
    simp only [sets] at h
    rw [reached_populateWith]
    split at h
    · cases h
      exact Pool.seed_started _ t _ w
    · cases h
    · cases h
  | put | get | pick | flip | resetMarks | snapshot | attend | process | reset => cases h

end Operation

structure Climate where
  set : Probability
  since : List Event

def World.eventsSince (w v : World) : List Event := v.events.drop w.events.length

def climate : List Operation → World → Climate → Climate
  | [], _, c => c
  | op :: ops, w, c =>
    let v := reached (op.act w)
    climate ops v <|
      match op.sets with
      | some t => ⟨t, w.eventsSince v⟩
      | none => { c with since := c.since ++ w.eventsSince v }

theorem temperature_climate (ops : List Operation) {w : World} {c : Climate}
    (h : w.pool.temperature = replay c.since c.set) :
    (courses ops w).pool.temperature =
      replay (climate ops w c).since (climate ops w c).set := by
  induction ops generalizing w c with
  | nil => exact h
  | cons op ops ih =>
    apply ih
    cases hs : op.sets with
    | none =>
      obtain ⟨es, hm⟩ := Operation.weathers_act hs w
      have hsince : w.eventsSince (reached (op.act w)) = es := by
        rw [World.eventsSince, hm.events, List.drop_left]
      simp only [hsince, replay_append, ← h]
      exact hm.temperature
    | some t =>
      obtain ⟨es, hm⟩ := Operation.started_act hs w
      have hsince : w.eventsSince (reached (op.act w)) = es := by
        rw [World.eventsSince, hm.events, List.drop_left]
      simp only [hsince]
      exact hm.temperature

end Biotope
