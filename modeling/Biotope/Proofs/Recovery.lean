import Biotope.Proofs.Censuses
import Biotope.Proofs.Refinement

/-!
# Recovered pools

A call that breaks off leaves the pool as it got it, and the next one goes on from there.
Putting files the creature before it counts, so a creature is in whatever happens. Taking
counts when the creature is already out: past the end of a gauge it is lost, and its
bucket may stay behind with nothing in it.
-/

namespace Biotope

open Act

def reply? {α} : EStateM.Result Fault World α → Option α
  | .ok x _ => some x
  | .error _ _ => none

namespace Act

variable {α β : Type}

theorem reached_entering (a : Act α) (w : World) :
    (reached (entering a w)).pool = (reached (a (notified w))).pool := by
  cases h : a (notified w) with
  | ok x v => rw [entering_ok h]
  | error f v => rw [entering_error h]; rfl

theorem reached_map (a : Act α) (f : α → β) (w : World) :
    reached ((a >>= fun x => pure (f x)) w) = reached (a w) := by
  cases h : a w with
  | ok x v => rw [bind_ok h]; rfl
  | error e v => rw [bind_error h]; rfl

theorem reply?_map (a : Act α) (f : α → β) (w : World) :
    reply? ((a >>= fun x => pure (f x)) w) = (reply? (a w)).map f := by
  cases h : a w with
  | ok x v => rw [bind_ok h]; rfl
  | error e v => rw [bind_error h]; rfl

theorem Keeps.reached {P : Pool → Prop} {a : Act α} (h : Keeps P (fun _ => P) a) {w : World}
    (hw : P w.pool) : P (reached (a w)).pool := by
  cases ha : a w with
  | ok x v => exact h.of_ok hw ha
  | error f v => exact h.of_error hw ha

end Act

namespace Pool

/-! ## Buckets that may be empty -/

structure Shelved (bs : List (SpeciesId × Species)) : Prop where
  ascending : Ascending bs
  species_eq : ∀ b ∈ bs, ∀ g ∈ b.2.members, g.species = b.1

theorem Filed.shelved {bs : List (SpeciesId × Species)} (h : Filed bs) : Shelved bs :=
  ⟨h.ascending, h.species_eq⟩

section
variable {p : Pool} {id : SpeciesId} {s : Species}

theorem mem_setBucket (h : Ascending p.buckets) {b : SpeciesId × Species}
    (hb : b ∈ (p.setBucket id s).buckets) : b = (id, s) ∨ b ∈ p.buckets := by
  obtain ⟨l, r, hl⟩ := exists_place h id
  rw [hl.set, List.mem_append, List.mem_cons] at hb
  rcases hb with hb | rfl | hb
  · exact .inr (hl.others b (List.mem_append_left r hb))
  · exact .inl rfl
  · exact .inr (hl.others b (List.mem_append_right l hb))

theorem eq_of_mem_setBucket (h : Ascending p.buckets) {b : SpeciesId × Species}
    (hb : b ∈ (p.setBucket id s).buckets) (hid : b.1 = id) : b = (id, s) := by
  obtain ⟨l, r, hl⟩ := exists_place h id
  rw [hl.set, List.mem_append, List.mem_cons] at hb
  rcases hb with hb | rfl | hb
  · exact absurd hid (hl.around.ne (List.mem_append_left r hb))
  · rfl
  · exact absurd hid (hl.around.ne (List.mem_append_right l hb))

theorem Shelved.setBucket (h : Shelved p.buckets) (hs : ∀ g ∈ s.members, g.species = id) :
    Shelved (p.setBucket id s).buckets := by
  obtain ⟨l, r, hl⟩ := exists_place h.ascending id
  constructor
  · rw [hl.set]
    exact hl.around.ascending hl.ascending s
  · intro b hb
    rcases mem_setBucket h.ascending hb with rfl | hb
    · exact hs
    · exact h.species_eq b hb

theorem Shelved.find (h : Shelved p.buckets) (hs : p.find? id = some s) :
    ∀ g ∈ s.members, g.species = id := by
  obtain ⟨b, hb, rfl⟩ := Option.map_eq_some_iff.mp hs
  have hid : b.1 = id := by simpa using List.find?_some hb
  exact hid ▸ h.species_eq b (List.mem_of_find?_eq_some hb)

theorem Shelved.eraseBucket (h : Shelved p.buckets) : Shelved (p.eraseBucket id).buckets :=
  ⟨h.ascending.filter _, fun b hb => h.species_eq b (List.mem_of_mem_filter hb)⟩

theorem held_eraseBucket (h : ∀ b ∈ p.buckets, b.1 = id → b.2.bag = 0) :
    (p.eraseBucket id).held = p.held := by
  show contents (p.buckets.filter _) = contents p.buckets
  revert h
  induction p.buckets with
  | nil => exact fun _ => rfl
  | cons b bs ih =>
    intro h
    have hrest := ih fun c hc => h c (List.mem_cons_of_mem b hc)
    by_cases hid : b.1 = id
    · rw [List.filter_cons_of_neg (by simp [hid]), hrest, contents_cons,
        h b List.mem_cons_self hid, zero_add]
    · rw [List.filter_cons_of_pos (by simpa using hid), contents_cons, contents_cons, hrest]

end

/-! ## Putting -/

section
variable {p : Pool} (g : Gene)

def shelve (p : Pool) (g : Gene) : Pool :=
  p.setBucket g.species (((p.find? g.species).getD {}).add g)

theorem shelved_shelve (h : Shelved p.buckets) : Shelved (p.shelve g).buckets := by
  apply h.setBucket
  intro m hm
  rw [← Species.mem_bag, Species.bag_add, Multiset.mem_cons, Species.mem_bag] at hm
  rcases hm with rfl | hm
  · rfl
  · cases hs : p.find? g.species with
    | none =>
      rw [hs] at hm
      exact absurd hm (Array.not_mem_empty m)
    | some s =>
      rw [hs] at hm
      exact h.find hs m hm

theorem filed_shelve (h : Filed p.buckets) : Filed (p.shelve g).buckets := by
  have hshelved := shelved_shelve g h.shelved
  refine ⟨hshelved.ascending, fun b hb => ?_, hshelved.species_eq⟩
  rcases mem_setBucket h.ascending hb with rfl | hb
  · exact Species.members_add_ne _ g
  · exact h.inhabited b hb

end

theorem keeps_count (bs : List (SpeciesId × Species)) (t : Tally) (c : Counting Int64) :
    Keeps (fun p => p.buckets = bs) (fun _ p => p.buckets = bs) (discard (count t c)) := by
  have hset (p : Pool) (γ : Gauge) : (p.setGauge t γ).buckets = p.buckets := by
    cases t <;> rfl
  constructor
  · intro w v u hw h
    obtain ⟨n, γ, -, rfl⟩ := of_count_ok h
    exact (hset _ _).trans hw
  · intro w v f hw h
    cases hc : c (w.pool.gauge t) with
    | ok n γ =>
      rw [count_ok hc] at h
      cases h
    | error e γ =>
      rw [count_error hc] at h
      cases h
      exact (hset _ _).trans hw

theorem keeps_register (bs : List (SpeciesId × Species)) (id : SpeciesId) (new : Bool) :
    Keeps (fun p => p.buckets = bs) (fun _ p => p.buckets = bs) (register id new) := by
  unfold register
  refine keeps_bind (keeps_count bs _ _) fun _ => keeps_ite ?_ (idle_pure _).keeps
  refine keeps_bind (keeps_count bs _ _) fun _ => ?_
  exact keeps_bind (keeps_modifyPool fun _ hp => hp) fun _ => (idle_note _).keeps

/-- Done or broken off, putting leaves the creature in its place. -/
theorem put_buckets (g : Gene) (w : World) :
    (reached (put g w)).pool.buckets = (w.pool.shelve g).buckets := by
  have hinsert (w : World) : (reached (insert g w)).pool.buckets = (w.pool.shelve g).buckets := by
    rw [insert_eq]
    exact (keeps_register _ _ _).reached rfl
  rw [put, reached_entering, hinsert, notified_pool]

/-! ## Taking -/

def AtEnd (p : Pool) : Prop :=
  p.creatures.current = Int64.minValue ∨ p.species.current = Int64.minValue

inductive Parted (g : Gene) (p : Pool) : EStateM.Result Fault World (Option Gene) → Prop
  | served {v : World} (held : p.held = g ::ₘ v.pool.held) (shelved : Shelved v.pool.buckets) :
      Parted g p (.ok (some g) v)
  | lost {v : World} (h : p.AtEnd) (held : p.held = g ::ₘ v.pool.held)
      (shelved : Shelved v.pool.buckets) : Parted g p (.error .differenceOverflow v)

theorem release_parted {id : SpeciesId} {s rest : Species} {g : Gene} {w : World} (τ : Stream)
    (h : Shelved w.pool.buckets) (hs : w.pool.find? id = some s) (hbag : s.bag = g ::ₘ rest.bag) :
    Parted g w.pool
      (release id g rest { w with stream := τ, pool := w.pool.setBucket id rest }) := by
  have hrest : Shelved (w.pool.setBucket id rest).buckets := by
    apply h.setBucket
    intro m hm
    apply h.find hs m
    rw [← Species.mem_bag, hbag]
    exact Multiset.mem_cons_of_mem (Species.mem_bag.mpr hm)
  have hheld : w.pool.held = g ::ₘ (w.pool.setBucket id rest).held := by
    have hset := held_setBucket h.ascending id rest
    rw [hs, Option.getD_some, hbag, Multiset.add_cons, ← Multiset.cons_add] at hset
    exact (add_right_cancel hset).symm
  rw [release]
  cases hc : Gauge.decrement w.pool.creatures with
  | error f γ =>
    obtain ⟨rfl, hmin⟩ := Gauge.decrement_of_error hc
    rw [bind_error (count_error hc)]
    exact .lost (.inl hmin) hheld hrest
  | ok n γ =>
    rw [bind_ok (count_ok hc)]
    by_cases hx : rest.isExtinct = true
    · -- the bucket goes, and nothing with it
      have herase : w.pool.held = g ::ₘ ((w.pool.setBucket id rest).eraseBucket id).held := by
        rw [held_eraseBucket, hheld]
        intro b hb hid
        rw [eq_of_mem_setBucket h.ascending hb hid, Species.bag, Species.isExtinct_iff.mp hx]
        rfl
      rw [if_pos hx, bind_ok (a := modifyPool _) rfl]
      cases hd : Gauge.decrement w.pool.species with
      | error f δ =>
        obtain ⟨rfl, hmin⟩ := Gauge.decrement_of_error hd
        rw [bind_error (count_error hd)]
        exact .lost (.inr hmin) herase hrest.eraseBucket
      | ok m δ =>
        rw [bind_ok (count_ok hd)]
        exact .served herase hrest.eraseBucket
    · rw [if_neg hx]
      exact .served hheld hrest

theorem chosen_admits {id i : SpeciesId} {p : Pool} {σ τ : Stream} (h : chosen id p σ = (i, τ))
    {g : Gene} (hg : g.species = i) : Admits id g := by
  by_cases ha : id = .any
  · exact .inl ha
  · rw [chosen_of_ne_any ha] at h
    cases h
    exact .inr hg

inductive Ended (id : SpeciesId) (p : Pool) : EStateM.Result Fault World (Option Gene) → Prop
  | missed {v : World} (h : v.pool = p) : Ended id p (.ok none v)
  | parted {g : Gene} {r : EStateM.Result Fault World (Option Gene)} (ha : Admits id g)
      (h : Parted g p r) : Ended id p r

theorem takeAt_ended {id i : SpeciesId} {p : Pool} {w : World} (hw : w.pool = p)
    (h : Shelved p.buckets) (hi : ∀ g : Gene, g.species = i → Admits id g) :
    Ended id p (takeAt i p w) := by
  subst hw
  unfold takeAt
  cases hs : w.pool.find? i with
  | none => exact .missed rfl
  | some s =>
    dsimp only
    by_cases hempty : s.members = #[]
    · rw [takeFrom_of_empty hempty]
      exact .missed rfl
    · obtain ⟨g, rest, τ, hselect, hbag⟩ := Species.select_eq hempty w.stream
      have hg : g.species = i := by
        apply h.find hs
        rw [← Species.mem_bag, hbag]
        exact Multiset.mem_cons_self ..
      rw [takeFrom_eq hselect]
      exact .parted (hi g hg) (release_parted τ h hs hbag)

theorem Ended.entering {id : SpeciesId} {p : Pool} {w : World} {a : Act (Option Gene)}
    (h : Ended id p (a (notified w))) : Ended id p (entering a w) := by
  rw [entering_eq]
  generalize a (notified w) = r at h
  cases h with
  | missed h => exact .missed h
  | parted ha h =>
    cases h with
    | served hheld hs => exact .parted ha (.served hheld hs)
    | lost hend hheld hs => exact .parted ha (.lost hend hheld hs)

theorem take_ended (id : SpeciesId) {w : World} (h : Shelved w.pool.buckets) :
    Ended id w.pool (take id w) := by
  rw [take_eq]
  apply Ended.entering
  rw [bind_ok (a := getPool) rfl, notified_pool]
  by_cases he : w.pool.buckets.isEmpty = true
  · rw [if_pos he]
    exact .missed (notified_pool w)
  · rw [if_neg he]
    cases hc : chosen id w.pool (notified w).stream with
    | mk i τ =>
      rw [bind_ok (draw_ok hc)]
      exact takeAt_ended (notified_pool w) h fun g hg => chosen_admits hc hg

/-! ## Calls -/

/-- What a call does to the pool, what it answers if it is done, and what it loses. -/
inductive Effect (p : Pool) : Call → Option Reply → Multiset Gene → Pool → Prop
  | put {g : Gene} {q : Pool} (h : q.held = g ::ₘ p.held) : Effect p (.put g) (some .done) 0 q
  /-- It breaks off, but the creature is in. -/
  | filed {g : Gene} {q : Pool} (h : q.held = g ::ₘ p.held) : Effect p (.put g) none 0 q
  | miss {id : SpeciesId} : Effect p (.get id) (some (.creature none)) 0 p
  | hit {id : SpeciesId} {g : Gene} {q : Pool} (ha : Admits id g) (h : p.held = g ::ₘ q.held) :
      Effect p (.get id) (some (.creature (some g))) 0 q
  /-- It breaks off at the end of a gauge, and the creature it has taken out is nowhere. -/
  | loss {id : SpeciesId} {g : Gene} {q : Pool} (hend : p.AtEnd) (ha : Admits id g)
      (h : p.held = g ::ₘ q.held) : Effect p (.get id) none {g} q
  | pick {id : SpeciesId} : Effect p .pick (some (.species id)) 0 p

/-- A call, done or broken off, has its effect, leaves the buckets in order, and leaves none
empty if it loses nothing. -/
theorem call_effect (c : Call) {w : World} (h : Shelved w.pool.buckets) :
    ∃ lost, Effect w.pool c (reply? (c.act w)) lost (reached (c.act w)).pool ∧
      Shelved (reached (c.act w)).pool.buckets ∧
      (lost = 0 → Filed w.pool.buckets → Filed (reached (c.act w)).pool.buckets) := by
  cases c with
  | put g =>
    rw [Call.act, reply?_map, reached_map, put_buckets]
    have hheld : (reached (put g w)).pool.held = g ::ₘ w.pool.held := by
      rw [held, put_buckets]
      exact held_setBucket_add h.ascending g
    refine ⟨0, ?_, shelved_shelve g h, fun _ hf => filed_shelve g hf⟩
    cases hp : put g w with
    | ok u v => exact .put (hp ▸ hheld)
    | error f v => exact .filed (hp ▸ hheld)
  | get id =>
    rw [Call.act, reply?_map, reached_map]
    have hended := take_ended id h
    have hfiled {x : Option Gene} {v : World} (hv : take id w = .ok x v)
        (hf : Filed w.pool.buckets) : Filed v.pool.buckets := (of_take_ok hf hv).1.filed hf
    generalize take id w = r at hended hfiled
    cases hended with
    | missed hv =>
      rw [reached_ok, hv]
      exact ⟨0, .miss, h, fun _ hf => hf⟩
    | parted ha hparted =>
      cases hparted with
      | served hheld hs => exact ⟨0, .hit ha hheld, hs, fun _ hf => hfiled rfl hf⟩
      | lost hend hheld hs => exact ⟨_, .loss hend ha hheld, hs, fun hlost => by simp at hlost⟩
  | pick =>
    rw [Call.act, reply?_map, reached_map]
    obtain ⟨id, v, hv, hu, -⟩ := calm_pick w
    rw [hv, reached_ok, hu.pool]
    exact ⟨0, .pick, h, fun _ hf => hf⟩

/-! ## Series of calls -/

/-- Calls one after another. After one that breaks off, which has no reply, the next goes on
with what is there. -/
def endure : List Call → World → List (Option Reply) × World
  | [], w => ([], w)
  | c :: cs, w =>
    let (rs, v) := endure cs (reached (c.act w))
    (reply? (c.act w) :: rs, v)

inductive Effects : Pool → List Call → List (Option Reply) → Multiset Gene → Pool → Prop
  | nil {p : Pool} : Effects p [] [] 0 p
  | cons {p q t : Pool} {c : Call} {r : Option Reply} {cs : List Call} {rs : List (Option Reply)}
      {lost more : Multiset Gene} (h : Effect p c r lost q) (hs : Effects q cs rs more t) :
      Effects p (c :: cs) (r :: rs) (lost + more) t

/-- What was there and was put in has been handed out, is lost, or is still there. -/
theorem Effects.balance {p q : Pool} {cs : List Call} {rs : List (Option Reply)}
    {lost : Multiset Gene} (h : Effects p cs rs lost q) :
    handedOut rs.reduceOption + lost + q.held = p.held + putIn cs := by
  induction h with
  | nil => simp [handedOut, putIn]
  | cons h _ ih =>
    cases h with
    | put h => simpa [List.reduceOption, handedOut, putIn, h] using ih
    | filed h => simpa [List.reduceOption, handedOut, putIn, h] using ih
    | miss => simpa [List.reduceOption, handedOut, putIn] using ih
    | hit _ h => simpa [List.reduceOption, handedOut, putIn, h] using ih
    | loss _ _ h => simpa [List.reduceOption, handedOut, putIn, h] using ih
    | pick => simpa [List.reduceOption, handedOut, putIn] using ih

theorem endure_spec (calls : List Call) {w : World} (h : Shelved w.pool.buckets) :
    ∃ lost, Effects w.pool calls (endure calls w).1 lost (endure calls w).2.pool ∧
      (lost = 0 → Filed w.pool.buckets → Filed (endure calls w).2.pool.buckets) := by
  induction calls generalizing w with
  | nil => exact ⟨0, .nil, fun _ hf => hf⟩
  | cons c cs ih =>
    obtain ⟨lost, heffect, hshelved, hfiled⟩ := call_effect c h
    obtain ⟨more, heffects, hrest⟩ := ih hshelved
    refine ⟨lost + more, .cons heffect heffects, fun hzero hf => ?_⟩
    obtain ⟨hlost, hmore⟩ := add_eq_zero.mp hzero
    exact hrest hmore (hfiled hlost hf)

/-- Whatever an accepted census says of its counts, a series of calls loses only what a
request has taken out when it breaks off at the end of a gauge. As long as none does, what
is there is accepted again. -/
theorem endure_recovers (c : Census) (w : World) (hc : Ascending c.buckets)
    (h : c.toPool = .ok w.pool) (calls : List Call) :
    ∃ lost, Effects w.pool calls (endure calls w).1 lost (endure calls w).2.pool ∧
      handedOut (endure calls w).1.reduceOption + lost + (endure calls w).2.pool.held =
        w.pool.held + putIn calls ∧
      (lost = 0 → (endure calls w).2.pool.census.toPool = .ok (endure calls w).2.pool) := by
  obtain ⟨hf, rfl⟩ := (toPool_ok_iff hc).mp h
  have hf : Filed w.pool.buckets := hf
  obtain ⟨lost, heffects, hfiled⟩ := endure_spec calls hf.shelved
  exact ⟨lost, heffects, heffects.balance, fun hlost => Census.toPool_census (hfiled hlost hf)⟩

theorem put_full (g : Gene) {w : World} (h : w.pool.creatures.current = Int64.maxValue) :
    reply? (put g w) = none := by
  cases hp : put g w with
  | error f v => rfl
  | ok u v =>
    have hinsert := of_entering_ok hp
    rw [insert_eq, register] at hinsert
    obtain ⟨_, t, hcount, -⟩ := of_bind_ok hinsert
    obtain ⟨n, γ, hc, -⟩ := of_count_ok hcount
    rw [notified_pool] at hc
    cases (Gauge.increment_max h).symm.trans hc

/-- A put that breaks off at the end of the count is in all the same. -/
theorem endure_full :
    let w : World := { (default : World) with pool := { creatures := .ofValue Int64.maxValue } }
    w.pool.census.toPool = .ok w.pool ∧ (endure [.put .merge] w).1 = [none] ∧
      (endure [.put .merge] w).2.pool.held = {.merge} ∧
      (endure [.put .merge] w).2.pool.census.toPool = .ok (endure [.put .merge] w).2.pool := by
  intro w
  obtain ⟨lost, heffects, hbalance, haccepted⟩ :=
    endure_recovers w.pool.census w List.Pairwise.nil rfl [.put .merge]
  have hnone : (endure [.put .merge] w).1 = [none] := by
    rw [endure, endure, Call.act, reply?_map, put_full .merge rfl]
    rfl
  rw [hnone] at heffects hbalance
  have hlost : lost = 0 := by
    cases heffects with
    | cons h hs =>
      cases h
      cases hs
      rfl
  refine ⟨rfl, hnone, ?_, haccepted hlost⟩
  rw [hlost] at hbalance
  exact hbalance

/-! ## Losses -/

theorem eq_empty_of_bag {s : Species} (h : s.bag = 0) : s = {} := by
  obtain ⟨ms⟩ := s
  have hms : ms.toList = [] := (Multiset.coe_eq_zero _).mp h
  rw [Array.toList_eq_nil_iff.mp hms]

/-- The last of a species, taken when the creatures cannot be counted down, is lost and leaves
its bucket behind. -/
theorem take_last {id : SpeciesId} {s : Species} {g : Gene} {w : World} (hid : id ≠ .any)
    (hs : w.pool.find? id = some s) (hbag : s.bag = {g})
    (hmin : w.pool.creatures.current = Int64.minValue) :
    ∃ v, take id w = .error .differenceOverflow v ∧
      v.pool.buckets = (w.pool.setBucket id {}).buckets := by
  have hne : s.members ≠ #[] := by
    rintro hempty
    simp [Species.bag, hempty] at hbag
  obtain ⟨m, rest, τ, hselect, hrest⟩ := Species.select_eq hne (notified w).stream
  rw [hbag, ← Multiset.cons_zero, Multiset.cons_eq_cons] at hrest
  have hempty : rest = {} := by
    rcases hrest with ⟨-, h⟩ | ⟨-, t, h, -⟩
    · exact eq_empty_of_bag h.symm
    · exact absurd h (Multiset.cons_ne_zero).symm
  have hbuckets : ¬ w.pool.buckets.isEmpty = true := by
    intro h
    rw [find?, List.isEmpty_iff.mp h] at hs
    cases hs
  have hchosen := chosen_of_ne_any hid w.pool (notified w).stream
  have hmin : (notified w).pool.creatures.current = Int64.minValue := by rwa [notified_pool]
  -- the bucket is written back, empty, before the creatures are counted down
  have hrelease : ∃ v, release id m rest { notified w with
      stream := τ, pool := (notified w).pool.setBucket id rest } = .error .differenceOverflow v ∧
      v.pool.buckets = (w.pool.setBucket id {}).buckets := by
    rw [← notified_pool w, release, hempty]
    exact ⟨_, bind_error (count_error (Gauge.decrement_min hmin)), rfl⟩
  obtain ⟨v, hv, hbuckets'⟩ := hrelease
  refine ⟨{ v with poisoned := true }, ?_, hbuckets'⟩
  rw [take_eq]
  apply entering_error
  rw [bind_ok (a := getPool) rfl, notified_pool, if_neg hbuckets, bind_ok (draw_ok hchosen)]
  unfold takeAt
  rw [hs]
  dsimp only
  rw [takeFrom_eq hselect]
  exact hv

/-- Nothing of a pool that held one creature is left, and what is left is refused. -/
theorem endure_last {id : SpeciesId} {s : Species} {g : Gene} {w : World} (hid : id ≠ .any)
    (hs : w.pool.buckets = [(id, s)]) (hbag : s.bag = {g})
    (hmin : w.pool.creatures.current = Int64.minValue) :
    (endure [.get id] w).1 = [none] ∧ (endure [.get id] w).2.pool.held = 0 ∧
      (endure [.get id] w).2.pool.census.toPool = .error (.vacant id) := by
  have hfind : w.pool.find? id = some s := by
    rw [find?, hs]
    simp
  obtain ⟨v, hv, hbuckets⟩ := take_last hid hfind hbag hmin
  have hset : v.pool.buckets = [(id, {})] := by
    rw [hbuckets, setBucket, hs]
    exact insertBucket_present (l := []) (r := []) ⟨by simp, by simp⟩ _ _
  have hendure : endure [.get id] w = ([none], v) := by
    rw [endure, endure, Call.act, reply?_map, reached_map, hv]
    rfl
  have hheld : v.pool.held = 0 := by
    rw [held, hset]
    rfl
  have hrefused : v.pool.census.toPool = .error (.vacant id) := by
    have hvacant : Species.isExtinct {} = true := rfl
    simp [Census.toPool, Census.error?, census, hset, Census.bucketError?, hvacant]
  rw [hendure]
  exact ⟨rfl, hheld, hrefused⟩

/-- A request breaks off at the end of the count. The creature it took out is gone, and the
empty bucket that stays is refused. -/
theorem endure_loses :
    let p : Pool := {
      buckets := [(Gene.put.species, ⟨#[.put]⟩)]
      genes := .ofValue 1
      species := .ofValue 1
      creatures := ⟨Int64.minValue, Int64.minValue, 0⟩ }
    let w : World := { (default : World) with pool := p }
    p.census.toPool = .ok p ∧ p.held = {.put} ∧
      (endure [.get Gene.put.species] w).1 = [none] ∧
      (endure [.get Gene.put.species] w).2.pool.held = 0 ∧
      (endure [.get Gene.put.species] w).2.pool.census.toPool =
        .error (.vacant Gene.put.species) := by
  intro p w
  have hfiled : Filed p.buckets := by
    refine filed_append_cons (l := []).mpr ⟨List.pairwise_singleton _ _, filed_nil, by simp, ?_⟩
    intro g hg
    rw [List.mem_singleton.mp (Array.mem_toList_iff.mpr hg)]
  exact ⟨Census.toPool_census hfiled, rfl,
    endure_last (SpeciesId.ofHash_ne_any _) rfl rfl rfl⟩

end Pool

end Biotope
