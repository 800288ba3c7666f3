import Biotope.Proofs.Soundness

/-!
# Pools as multisets

To its clients a sound pool is a multiset of creatures: each call answers as the multiset
would and changes it as the answer says. A series of calls, from one client or several in
turn, hands out no creature that was not there before or put in, and loses none.
-/

namespace Biotope.Pool

open Act

inductive Call where
  | put (g : Gene)
  | get (id : SpeciesId)
  | pick

inductive Reply where
  | done
  | creature (x : Option Gene)
  | species (id : SpeciesId)

def Call.act : Call → Act Reply
  | put g => do
    Pool.put g
    return .done
  | get id => do return .creature (← take id)
  | pick => do return .species (← Pool.pick)

def serve : List Call → Act (List Reply)
  | [] => return []
  | c :: cs => do
    let r ← c.act
    return r :: (← serve cs)

/-! ## The answers of a multiset -/

inductive Answers (p : Pool) : Call → Reply → Pool → Prop where
  | put {g : Gene} {q : Pool} (h : q.held = g ::ₘ p.held) : Answers p (.put g) .done q
  /-- Nothing that is held would do. -/
  | miss {id : SpeciesId} (h : ∀ g ∈ p.held, ¬ Admits id g) :
      Answers p (.get id) (.creature none) p
  | hit {id : SpeciesId} {g : Gene} {q : Pool} (ha : Admits id g) (h : p.held = g ::ₘ q.held) :
      Answers p (.get id) (.creature (some g)) q
  | void (h : p.held = 0) : Answers p .pick (.species .any) p
  | live {id : SpeciesId} {s : Species} (hne : id ≠ .any) (h : p.find? id = some s) :
      Answers p .pick (.species id) p

inductive Answered : Pool → List Call → List Reply → Pool → Prop where
  | nil {p : Pool} : Answered p [] [] p
  | cons {p q t : Pool} {c : Call} {r : Reply} {cs : List Call} {rs : List Reply}
      (h : Answers p c r q) (hs : Answered q cs rs t) : Answered p (c :: cs) (r :: rs) t

def putIn : List Call → Multiset Gene
  | [] => 0
  | .put g :: cs => g ::ₘ putIn cs
  | .get _ :: cs | .pick :: cs => putIn cs

def handedOut : List Reply → Multiset Gene
  | [] => 0
  | .creature (some g) :: rs => g ::ₘ handedOut rs
  | .creature none :: rs | .done :: rs | .species _ :: rs => handedOut rs

/-- What was there and was put in has been handed out or is still there. -/
theorem Answered.balance {p q : Pool} {cs : List Call} {rs : List Reply}
    (h : Answered p cs rs q) : handedOut rs + q.held = p.held + putIn cs := by
  induction h with
  | nil => simp [handedOut, putIn]
  | cons h _ ih =>
    cases h with
    | put h => simpa [handedOut, putIn, h] using ih
    | miss _ => simpa [handedOut, putIn] using ih
    | hit _ h => simp [handedOut, putIn, h, ih]
    | void _ => simpa [handedOut, putIn] using ih
    | live _ _ => simpa [handedOut, putIn] using ih

/-! ## One call -/

theorem of_pick_ok {w v : World} {id : SpeciesId} (h : pick w = .ok id v) :
    v.pool = w.pool ∧ ∃ τ, w.pool.randomSpecies w.stream = (id, τ) := by
  obtain ⟨p, u, h1, h⟩ := of_bind_ok (of_entering_ok h)
  cases h1
  rw [notified_pool] at h
  cases hr : w.pool.randomSpecies w.stream with
  | mk i τ =>
    cases (draw_ok (w := notified w) (by rw [notified_stream]; exact hr)).symm.trans h
    exact ⟨notified_pool w, τ, rfl⟩

theorem Taken.answers {id : SpeciesId} {p q : Pool} {x : Option Gene} (h : Taken id p x q) :
    Answers p (.get id) (.creature x) q := by
  cases h with
  | none h => exact .miss h
  | some ha h => exact .hit ha h.held

theorem answers_pick {p : Pool} (hp : p.Sound) {id : SpeciesId} {σ τ : Stream}
    (h : p.randomSpecies σ = (id, τ)) : Answers p .pick (.species id) p := by
  by_cases he : p.buckets = []
  · cases (randomSpecies_nil he σ).symm.trans h
    exact .void (held_nil he)
  · obtain ⟨b, hb, τ', hr⟩ := randomSpecies_mem he σ
    cases hr.symm.trans h
    obtain ⟨g, hg⟩ := Array.exists_mem_of_ne_empty _ (hp.inhabited b hb)
    have hs : (p.find? b.1).isSome := (find?_isSome_iff hp.filed).mpr
      ⟨g, mem_contents.mpr ⟨b, hb, hg⟩, hp.species_eq b hb g hg⟩
    obtain ⟨s, hs⟩ := Option.isSome_iff_exists.mp hs
    exact .live (hp.ne_any b hb) hs

theorem of_call_ok {c : Call} {w v : World} {r : Reply} (hw : w.pool.Sound)
    (h : c.act w = .ok r v) : v.pool.Sound ∧ Answers w.pool c r v.pool := by
  cases c with
  | put g =>
    obtain ⟨u, t, ht, h⟩ := of_bind_ok h
    cases h
    obtain ⟨hg, -, -⟩ := of_put_ok hw.filed ht
    exact ⟨hg.sound hw, .put hg.held⟩
  | get id =>
    obtain ⟨x, t, ht, h⟩ := of_bind_ok h
    cases h
    obtain ⟨hx, -, -⟩ := of_take_ok hw.filed ht
    exact ⟨hx.sound hw, hx.answers⟩
  | pick =>
    obtain ⟨id, t, ht, h⟩ := of_bind_ok h
    cases h
    obtain ⟨hv, τ, hr⟩ := of_pick_ok ht
    rw [hv]
    exact ⟨hw, answers_pick hw hr⟩

/-- Only putting in one more than can be counted breaks off. -/
theorem of_call_error {c : Call} {w v : World} {f : Fault} (hw : w.pool.Sound)
    (h : c.act w = .error f v) :
    ∃ g, c = .put g ∧ f = .sumOverflow ∧ v.pool.held = g ::ₘ w.pool.held ∧
      v.pool.held.card = 2 ^ 63 := by
  cases c with
  | put g =>
    cases hp : Pool.put g w with
    | ok u t => cases (bind_ok hp).symm.trans h
    | error e t =>
      cases (bind_error hp).symm.trans h
      obtain ⟨rfl, hheld, hc, -⟩ := of_put_error hw.tallied hp
      exact ⟨g, rfl, rfl, hheld, hc⟩
  | get id =>
    obtain ⟨x, t, ht⟩ := take_done hw.tallied id
    cases (bind_ok ht).symm.trans h
  | pick =>
    obtain ⟨id, t, ht, -⟩ := calm_pick w
    cases (bind_ok ht).symm.trans h

/-! ## Series of calls -/

theorem of_serve_ok : ∀ {cs : List Call} {w v : World} {rs : List Reply}, w.pool.Sound →
    serve cs w = .ok rs v → v.pool.Sound ∧ Answered w.pool cs rs v.pool
  | [], w, v, rs, hw, h => by
    obtain ⟨rfl, rfl⟩ := of_pure_ok h
    exact ⟨hw, .nil⟩
  | c :: cs, w, v, rs, hw, h => by
    obtain ⟨r, u, h1, h⟩ := of_bind_ok h
    obtain ⟨rs', t, h2, h⟩ := of_bind_ok h
    obtain ⟨rfl, rfl⟩ := of_pure_ok h
    obtain ⟨hu, hc⟩ := of_call_ok hw h1
    obtain ⟨ht, hcs⟩ := of_serve_ok hu h2
    exact ⟨ht, .cons hc hcs⟩

/-- The calls up to a put that breaks off; by then the creature is held. -/
structure Interrupted (p : Pool) (cs : List Call) (q : Pool) : Prop where
  full : q.held.card = 2 ^ 63
  last : ∃ front g rest rs o, cs = front ++ .put g :: rest ∧ Answered p front rs o ∧
    q.held = g ::ₘ o.held

theorem of_serve_error : ∀ {cs : List Call} {w v : World} {f : Fault}, w.pool.Sound →
    serve cs w = .error f v → f = .sumOverflow ∧ Interrupted w.pool cs v.pool
  | [], _, _, _, _, h => by cases h
  | c :: cs, w, v, f, hw, h => by
    cases hc : c.act w with
    | error e u =>
      cases (bind_error hc).symm.trans h
      obtain ⟨g, rfl, rfl, hheld, hcard⟩ := of_call_error hw hc
      exact ⟨rfl, hcard, [], g, cs, [], w.pool, rfl, .nil, hheld⟩
    | ok r u =>
      obtain ⟨hu, ha⟩ := of_call_ok hw hc
      cases hs : serve cs u with
      | ok rs t => cases ((bind_ok hc).trans (bind_ok hs)).symm.trans h
      | error e t =>
        cases ((bind_ok hc).trans (bind_error hs)).symm.trans h
        obtain ⟨rfl, hcard, front, g, rest, rs, o, rfl, hfront, hheld⟩ := of_serve_error hu hs
        exact ⟨rfl, hcard, c :: front, g, rest, r :: rs, o, rfl, .cons ha hfront, hheld⟩

/-! ## Draining a bucket -/

theorem admits_iff {id : SpeciesId} (hid : id ≠ .any) {g : Gene} : Admits id g ↔ g.species = id :=
  ⟨fun h => h.resolve_left hid, .inr⟩

theorem bag_eq_filter {p : Pool} {id : SpeciesId} {s : Species} (hf : Filed p.buckets)
    (h : p.find? id = some s) : s.bag = p.held.filter (·.species = id) := by
  obtain ⟨l, r, ha, hb⟩ := around_of_find? hf h
  obtain ⟨_, hlr, _, hmem⟩ := filed_append_cons.mp (hb ▸ hf)
  have hnone : (contents (l ++ r)).filter (·.species = id) = 0 := by
    rw [Multiset.filter_eq_nil]
    intro g hg hid
    obtain ⟨b, hbm, hgm⟩ := mem_contents.mp hg
    exact ha.ne hbm ((hlr.species_eq b hbm g hgm).symm.trans hid)
  have hall : s.bag.filter (·.species = id) = s.bag := by
    rw [Multiset.filter_eq_self]
    exact fun g hg => hmem g (Species.mem_bag.mp hg)
  calc s.bag = s.bag.filter (·.species = id) + (contents (l ++ r)).filter (·.species = id) := by
        rw [hall, hnone, add_zero]
    _ = p.held.filter (·.species = id) := by
        rw [← Multiset.filter_add, held, hb]
        congr 1
        simp only [contents_append, contents_cons]
        abel

theorem Answered.of_cons {p q : Pool} {c : Call} {cs : List Call} {rs : List Reply}
    (h : Answered p (c :: cs) rs q) :
    ∃ r rs' o, rs = r :: rs' ∧ Answers p c r o ∧ Answered o cs rs' q := by
  cases h with
  | cons h hs => exact ⟨_, _, _, rfl, h, hs⟩

theorem Answers.of_get {p q : Pool} {id : SpeciesId} {r : Reply} (hid : id ≠ .any)
    (h : Answers p (.get id) r q) :
    (r = .creature none ∧ p.held.filter (·.species = id) = 0) ∨
      ∃ g, r = .creature (some g) ∧
        p.held.filter (·.species = id) = g ::ₘ q.held.filter (·.species = id) := by
  cases h with
  | miss h =>
    refine .inl ⟨rfl, Multiset.filter_eq_nil.mpr fun g hg hs => h g hg ?_⟩
    exact (admits_iff hid).mpr hs
  | hit ha h =>
    refine .inr ⟨_, rfl, ?_⟩
    rw [h]
    exact Multiset.filter_cons_of_pos _ ((admits_iff hid).mp ha)

/-- As many requests for a species as it has members are answered, and the next is not. -/
theorem Answered.drained {id : SpeciesId} (hid : id ≠ .any) : ∀ {k : Nat} {p q : Pool}
    {rs : List Reply}, (p.held.filter (·.species = id)).card = k →
    Answered p (List.replicate (k + 1) (.get id)) rs q →
    ∃ gs : List Gene, (gs : Multiset Gene) = p.held.filter (·.species = id) ∧
      rs = gs.map (fun g => .creature (some g)) ++ [.creature none]
  | 0, p, q, rs, hk, h => by
    obtain ⟨r, rs', o, rfl, ha, hs⟩ := h.of_cons
    cases hs
    rcases ha.of_get hid with ⟨rfl, hz⟩ | ⟨g, rfl, hg⟩
    · exact ⟨[], hz.symm, rfl⟩
    · rw [hg, Multiset.card_cons] at hk
      omega
  | k + 1, p, q, rs, hk, h => by
    obtain ⟨r, rs', o, rfl, ha, hs⟩ := h.of_cons
    rcases ha.of_get hid with ⟨rfl, hz⟩ | ⟨g, rfl, hg⟩
    · rw [hz, Multiset.card_zero] at hk
      omega
    · rw [hg, Multiset.card_cons] at hk
      obtain ⟨gs, hgs, rfl⟩ := Answered.drained hid (Nat.succ.inj hk) hs
      refine ⟨g :: gs, ?_, rfl⟩
      rw [hg, ← hgs]
      rfl

theorem serve_gets_done (id : SpeciesId) : ∀ (n : Nat) {w : World}, w.pool.Sound →
    ∃ rs v, serve (List.replicate n (.get id)) w = .ok rs v
  | 0, w, _ => ⟨[], w, rfl⟩
  | n + 1, w, hw => by
    obtain ⟨x, u, hu⟩ := take_done hw.tallied id
    have hc : (Call.get id).act w = .ok (.creature x) u := bind_ok hu
    obtain ⟨rs, v, hv⟩ := serve_gets_done id n (of_call_ok hw hc).1
    exact ⟨.creature x :: rs, v, (bind_ok hc).trans (bind_ok hv)⟩

/-! ## Refinement -/

/-- A series of calls on a sound pool is answered as a multiset would answer it, and what
was there and was put in has been handed out or is still there. Only a put that meets
`2 ^ 63 - 1` creatures breaks off, after the creature is in. A bucket of `k` members
answers `k` requests with its members and then no more. -/
theorem serve_refines (w : World) (h : w.pool.Sound) :
    (∀ calls, match serve calls w with
      | .ok replies v => v.pool.Sound ∧ Answered w.pool calls replies v.pool ∧
          handedOut replies + v.pool.held = w.pool.held + putIn calls
      | .error f v => f = .sumOverflow ∧ Interrupted w.pool calls v.pool) ∧
    ∀ id s, w.pool.find? id = some s → ∃ (gs : List Gene) (v : World), (gs : Multiset Gene) = s.bag ∧
      serve (List.replicate (s.size + 1) (.get id)) w =
        .ok (gs.map (fun g => .creature (some g)) ++ [.creature none]) v := by
  refine ⟨fun calls => ?_, fun id s hs => ?_⟩
  · cases hr : serve calls w with
    | ok replies v =>
      obtain ⟨hv, ha⟩ := of_serve_ok h hr
      exact ⟨hv, ha, ha.balance⟩
    | error f v => exact of_serve_error h hr
  · have hbag := bag_eq_filter h.filed hs
    have hsize : (w.pool.held.filter (·.species = id)).card = s.size := by
      rw [← hbag, Species.card_bag]
      rfl
    obtain ⟨l, r, _, hb⟩ := around_of_find? h.filed hs
    have hid : id ≠ .any := h.ne_any (id, s) (by rw [hb]; simp)
    obtain ⟨rs, v, hv⟩ := serve_gets_done id (s.size + 1) h
    obtain ⟨gs, hgs, rfl⟩ := (of_serve_ok h hv).2.drained hid hsize
    exact ⟨gs, v, hgs.trans hbag.symm, hv⟩

/-- Two members of a species differ in their probability, and there is a creature of another one.
All kinds of calls are answered, and the larger bucket answers two requests. -/
theorem serve_series :
    let id : SpeciesId := (Gene.chop .never).species
    let pair : Species := ⟨#[.chop .never, .chop .always]⟩
    let p : Pool :=
      { buckets := [(Gene.put.species, ⟨#[.put]⟩), (id, pair)]
        species := .ofValue 2, creatures := .ofValue 3 }
    let w : World := { stream := .seeded 7, pool := p }
    let calls : List Call := [.put (.chop .even), .get id, .pick, .get Gene.put.species, .get .any]
    w.pool.Sound ∧
      (∃ replies v, serve calls w = .ok replies v ∧ v.pool.Sound ∧
        Answered w.pool calls replies v.pool ∧
        handedOut replies + v.pool.held = w.pool.held + {.chop .even}) ∧
      ∃ (gs : List Gene) (v : World), (gs : Multiset Gene) = {.chop .never, .chop .always} ∧
        serve (List.replicate 3 (.get id)) w =
          .ok (gs.map (fun g => .creature (some g)) ++ [.creature none]) v := by
  intro id pair p w calls
  have hs : w.pool.Sound := by decide +kernel
  have hdone : ((serve calls).run' w).isSome = true := by decide +kernel
  have hfind : w.pool.find? id = some pair := by
    have hne : (Gene.put.species == id) = false := by decide +kernel
    simp [w, p, find?, hne]
  have hbag : pair.bag = {.chop .never, .chop .always} := rfl
  obtain ⟨hcalls, hbuckets⟩ := serve_refines w hs
  have hsize : pair.size = 2 := rfl
  obtain ⟨gs, u, hgs, hu⟩ := hbuckets id pair hfind
  rw [hsize] at hu
  refine ⟨hs, ?_, gs, u, hgs.trans hbag, hu⟩
  have hput : putIn calls = {.chop .even} := rfl
  -- the calls get a name, so that they are not served once more
  generalize calls = cs at hdone hput ⊢
  have hreplies := hcalls cs
  cases hr : serve cs w with
  | ok replies v =>
    rw [hr, hput] at hreplies
    exact ⟨replies, v, rfl, hreplies⟩
  | error f v =>
    rw [EStateM.run', EStateM.run, hr] at hdone
    cases hdone

end Biotope.Pool
