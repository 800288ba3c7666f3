import Biotope.Proofs.Seeding
import Biotope.Proofs.Weights

/-!
# New populations

A seeding that is done leaves the creatures that it has grown and nothing else, every gene of
them counted. Which creatures these are depends on the settings and the stream. A seeding that
is refused changes nothing.
-/

namespace Biotope

namespace Pool

open Act

/-! ## Templates -/

theorem mem_of_sample {s : Species} {σ : Stream} {g : Gene} (h : g ∈ (s.sample σ).1) :
    g ∈ s.members := by
  unfold Species.sample at h
  split at h
  · cases h
    exact Array.getElem_mem _
  · cases h

theorem mem_of_sampleMember {p : Pool} {σ : Stream} {g : Gene} (h : g ∈ (p.sampleMember σ).1) :
    g ∈ p.held := by
  simp only [sampleMember, bind, StateT.bind] at h
  cases hr : p.randomSpecies σ with
  | mk id τ =>
    rw [hr] at h
    dsimp only at h
    cases hs : p.find? id with
    | none =>
      rw [hs] at h
      cases h
    | some s =>
      rw [hs] at h
      obtain ⟨b, hb, rfl⟩ := Option.map_eq_some_iff.mp hs
      exact mem_contents.mpr ⟨b, List.mem_of_find?_eq_some hb, mem_of_sample h⟩

/-! ## Creatures on the way into the pool -/

/-- The pool of a seeding and the creatures that it has grown but not filed yet. All their
genes are counted, none of them is too deep, and what the pool holds was filed since the
`past`. -/
structure Stock (levels : Nat) (past : List Gene) (grown : Multiset Gene) (w : World) : Prop where
  sound : w.pool.Sound
  genes : w.pool.genes.current.toInt = ((grown + w.pool.held).map Gene.size).sum
  depth : ∀ c ∈ grown + w.pool.held, c.depth ≤ levels
  filed : ∃ new : List Gene, w.filed = new ++ past ∧ (new : Multiset Gene) = w.pool.held

section
variable {g : Grower} {source : TemplateSource} {levels n : Nat} {past : List Gene}
  {k : Multiset Gene} {w v : World} {u : Unit}

theorem Stock.size_lt (h : Stock levels past k w) {c : Gene} (hc : c ∈ w.pool.held) :
    c.size < 2 ^ 63 := by
  have hle : c.size ≤ ((k + w.pool.held).map Gene.size).sum :=
    Multiset.le_sum_of_mem (Multiset.mem_map_of_mem _ (Multiset.mem_add.mpr (.inr hc)))
  have hlt := w.pool.genes.current.toInt_lt
  rw [h.genes] at hlt
  omega

theorem Stock.light (h : Stock levels past k w) :
    TemplateSource.Light fun _ => w.pool.sampleMember :=
  fun _ _ _ hc => h.size_lt (mem_of_sampleMember hc)

theorem light_nothing : TemplateSource.nothing.Light := fun _ _ _ h => by cases h

theorem of_grown_ok {x : Gene} (h : grown g source w = .ok x v) :
    v.pool.buckets = w.pool.buckets ∧ v.filed = w.filed ∧ g.Grown source g.maximumDepth x
      (v.pool.genes.current.toInt - w.pool.genes.current.toInt) := by
  simp only [grown] at h
  split at h
  · rename_i hp
    cases h
    exact ⟨rfl, rfl, (g.yields_grow source g.maximumDepth).of_ok hp⟩
  · cases h

theorem Stock.grow {x : Gene} (h : Stock (g.maximumDepth + 1) past k w) (hs : source.Light)
    (hv : grown g source w = .ok x v) :
    Stock (g.maximumDepth + 1) past (x ::ₘ k) v ∧ v.pool.held = w.pool.held := by
  obtain ⟨hbuckets, hfiled, hx⟩ := of_grown_ok hv
  have hheld : v.pool.held = w.pool.held := congrArg contents hbuckets
  refine ⟨⟨(keeps_grown g source).of_ok h.sound hv, ?_, ?_, ?_⟩, hheld⟩
  · have hgenes := h.genes
    have hsize := hx.fits.size hs
    rw [hheld, Multiset.cons_add, Multiset.map_cons, Multiset.sum_cons]
    omega
  · intro c hc
    rw [hheld, Multiset.cons_add, Multiset.mem_cons] at hc
    rcases hc with rfl | hc
    · exact hx.fits.depth
    · exact h.depth c hc
  · rw [hheld, hfiled]
    exact h.filed

theorem Stock.insert {x : Gene} (h : Stock levels past (x ::ₘ k) w) (hv : insert x w = .ok u v) :
    Stock levels past k v ∧ v.pool.held = x ::ₘ w.pool.held := by
  obtain ⟨hgained, -, hfiled⟩ := of_insert_ok h.sound.filed hv
  have hall : k + v.pool.held = x ::ₘ k + w.pool.held := by
    rw [hgained.held, Multiset.add_cons, Multiset.cons_add]
  refine ⟨⟨hgained.sound h.sound, ?_, ?_, ?_⟩, hgained.held⟩
  · rw [hgained.genes, hall]
    exact h.genes
  · rw [hall]
    exact h.depth
  · obtain ⟨new, hpast, hnew⟩ := h.filed
    refine ⟨x :: new, ?_, ?_⟩
    · rw [hfiled, hpast, List.cons_append]
    · rw [← Multiset.cons_coe, hnew, hgained.held]

theorem Stock.growAll {xs : List Gene} (h : Stock (g.maximumDepth + 1) past k w)
    (hv : grownAll g n w = .ok xs v) :
    Stock (g.maximumDepth + 1) past (xs + k) v ∧ v.pool.held = w.pool.held ∧ xs.length = n := by
  induction n generalizing k w xs v with
  | zero =>
    obtain ⟨rfl, rfl⟩ := of_pure_ok hv
    exact ⟨by simpa using h, rfl, rfl⟩
  | succ n ih =>
    obtain ⟨x, u, hx, hv⟩ := of_bind_ok hv
    obtain ⟨ys, t, hys, hv⟩ := of_bind_ok hv
    obtain ⟨rfl, rfl⟩ := of_pure_ok hv
    obtain ⟨hu, hheld⟩ := h.grow light_nothing hx
    obtain ⟨ht, hheld', hlength⟩ := ih hu hys
    refine ⟨?_, hheld'.trans hheld, congrArg (· + 1) hlength⟩
    rwa [← Multiset.cons_coe, Multiset.cons_add, ← Multiset.add_cons]

theorem Stock.insertAll {xs : List Gene} (h : Stock levels past (xs + k) w)
    (hv : insertAll xs w = .ok u v) :
    Stock levels past k v ∧ v.pool.held.card = xs.length + w.pool.held.card := by
  induction xs generalizing w with
  | nil =>
    obtain ⟨-, rfl⟩ := of_pure_ok hv
    exact ⟨by simpa using h, by simp⟩
  | cons x xs ih =>
    obtain ⟨_, t, hx, hv⟩ := of_bind_ok hv
    rw [← Multiset.cons_coe, Multiset.cons_add] at h
    obtain ⟨ht, hheld⟩ := h.insert hx
    obtain ⟨hstock, hcard⟩ := ih ht hv
    refine ⟨hstock, ?_⟩
    rw [hcard, hheld, Multiset.card_cons, List.length_cons]
    omega

theorem Stock.settle (h : Stock (g.maximumDepth + 1) past 0 w) (hv : settle g n w = .ok u v) :
    Stock (g.maximumDepth + 1) past 0 v ∧ v.pool.held.card = n + w.pool.held.card := by
  induction n generalizing w with
  | zero =>
    obtain ⟨-, rfl⟩ := of_pure_ok hv
    exact ⟨h, by simp⟩
  | succ n ih =>
    obtain ⟨p, r, hr, hv⟩ := of_bind_ok hv
    cases hr
    obtain ⟨x, s, hx, hv⟩ := of_bind_ok hv
    obtain ⟨_, t, ht, hv⟩ := of_bind_ok hv
    obtain ⟨hs, hheld⟩ := h.grow h.light hx
    obtain ⟨ht, hheld'⟩ := hs.insert ht
    obtain ⟨hstock, hcard⟩ := ih ht hv
    refine ⟨hstock, ?_⟩
    rw [hcard, hheld', hheld, Multiset.card_cons]
    omega

end

/-- A pool with `n` creatures and nothing else: sound, every gene counted, all gauges without
a trace of how it came about, and no creature on more levels than these. -/
structure Populated (n levels : Nat) (p : Pool) : Prop where
  count : p.held.card = n
  sound : p.Sound
  genes : p.genes.current.toInt = (p.held.map Gene.size).sum
  marks : ∀ t, (p.gauge t).low = (p.gauge t).current ∧ (p.gauge t).high = (p.gauge t).current
  depth : ∀ c ∈ p.held, c.depth ≤ levels

theorem Stock.populated {levels : Nat} {past : List Gene} {w : World}
    (h : Stock levels past 0 w) : Populated w.pool.held.card levels w.pool.resetMarks := by
  refine ⟨rfl, h.sound.resetMarks, ?_, ?_, ?_⟩
  · have hgenes := h.genes
    rwa [zero_add] at hgenes
  · intro t
    cases t <;> exact ⟨rfl, rfl⟩
  · have hdepth := h.depth
    rwa [zero_add] at hdepth

theorem stock_empty {levels : Nat} {w : World} (h : w.pool.held = 0) (hs : w.pool.Sound)
    (hg : w.pool.genes = {}) : Stock levels w.filed 0 w := by
  refine ⟨hs, ?_, ?_, [], rfl, h.symm⟩
  · rw [hg, h]
    rfl
  · rw [h]
    simp

/-- The creatures of a seeding that is done are those that it has filed. -/
theorem of_seed_populated {n : Nat} {t : Probability} {g : Grower} {w v : World} {u : Unit}
    (h : seed n t g w = .ok u v) : Populated n (g.maximumDepth + 1) v.pool ∧
      ∃ new : List Gene, v.filed = new ++ w.filed ∧ (new : Multiset Gene) = v.pool.held := by
  rw [seed_eq] at h
  have h := of_entering_ok h
  -- nothing of the old pool is left when the first creature is grown
  let w₀ : World := { notified w with pool := { temperature := t } }
  have hempty : Stock (g.maximumDepth + 1) w.filed 0 w₀ := by
    rw [← notified_filed w]
    exact stock_empty (w := w₀) rfl (sound_empty t) rfl
  have hclose {s : World} (hs : Stock (g.maximumDepth + 1) w.filed 0 s)
      (hcard : s.pool.held.card = n) (hv : close s = .ok u v) :
      Populated n (g.maximumDepth + 1) v.pool ∧
        ∃ new : List Gene, v.filed = new ++ w.filed ∧ (new : Multiset Gene) = v.pool.held := by
    cases hv
    exact ⟨hcard ▸ hs.populated, hs.filed⟩
  unfold sow at h
  cases hp : g.policy with
  | template =>
    simp only [hp] at h
    obtain ⟨xs, r, hxs, h⟩ := of_bind_ok h
    obtain ⟨_, s, hs, h⟩ := of_bind_ok h
    obtain ⟨hstock, hheld, hlength⟩ := hempty.growAll hxs
    obtain ⟨hstock, hcard⟩ := hstock.insertAll hs
    refine hclose hstock ?_ h
    rw [hcard, hheld, hlength]
    rfl
  | existingSpecies =>
    simp only [hp] at h
    obtain ⟨_, s, hs, h⟩ := of_bind_ok h
    obtain ⟨hstock, hcard⟩ := hempty.settle hs
    exact hclose hstock hcard h

/-! ## One stream, one population -/

structure Twin (w v : World) : Prop where
  pool : w.pool = v.pool
  stream : w.stream = v.stream

inductive Parallel {α : Type} :
    EStateM.Result Fault World α → EStateM.Result Fault World α → Prop where
  | ok (x : α) {w v : World} (h : Twin w v) : Parallel (.ok x w) (.ok x v)
  | error (f : Fault) {w v : World} (h : Twin w v) : Parallel (.error f w) (.error f v)

structure Blind {α : Type} (a : Act α) : Prop where
  parallel : ∀ {w v : World}, Twin w v → Parallel (a w) (a v)

section
variable {α β : Type}

theorem blind_bind {a : Act α} {f : α → Act β} (ha : Blind a) (hf : ∀ x, Blind (f x)) :
    Blind (a >>= f) := by
  constructor
  intro w v h
  have hpar := ha.parallel h
  generalize hw : a w = rw, hv : a v = rv at hpar
  cases hpar with
  | ok x h' =>
    rw [bind_ok hw, bind_ok hv]
    exact (hf x).parallel h'
  | error f h' =>
    rw [bind_error hw, bind_error hv]
    exact .error f h'

theorem blind_pure (x : α) : Blind (pure x : Act α) := ⟨fun h => .ok x h⟩

theorem blind_getPool : Blind getPool := by
  constructor
  intro w v h
  simp only [getPool, h.pool]
  exact .ok _ h

theorem blind_modifyPool (f : Pool → Pool) : Blind (modifyPool f) :=
  ⟨fun h => .ok _ ⟨congrArg f h.pool, h.stream⟩⟩

theorem blind_note (n : Notice) : Blind (note n) := ⟨fun h => .ok _ ⟨h.pool, h.stream⟩⟩

theorem blind_record (g : Gene) : Blind (record g) := ⟨fun h => .ok _ ⟨h.pool, h.stream⟩⟩

theorem blind_count (t : Tally) (c : Counting Int64) : Blind (discard (count t c)) := by
  constructor
  intro w v h
  cases hc : c (w.pool.gauge t) with
  | ok n γ =>
    rw [count_ok hc, count_ok (h.pool ▸ hc)]
    exact .ok _ ⟨congrArg (·.setGauge t γ) h.pool, h.stream⟩
  | error f γ =>
    rw [count_error hc, count_error (h.pool ▸ hc)]
    exact .error _ ⟨congrArg (·.setGauge t γ) h.pool, h.stream⟩

end

theorem blind_grown (g : Grower) (source : TemplateSource) : Blind (grown g source) := by
  constructor
  intro w v h
  simp only [grown, h.pool, h.stream]
  split
  · exact .ok _ ⟨rfl, rfl⟩
  · exact .error _ ⟨rfl, rfl⟩

theorem blind_insert (c : Gene) : Blind (insert c) := by
  refine blind_bind blind_getPool fun p => blind_bind (blind_modifyPool _) fun _ =>
    blind_bind (blind_record c) fun _ => blind_bind (blind_count _ _) fun _ => ?_
  split
  · exact blind_bind (blind_count _ _) fun _ => blind_bind (blind_modifyPool _) fun _ =>
      blind_note _
  · exact blind_pure _

theorem blind_grownAll (g : Grower) (n : Nat) : Blind (grownAll g n) := by
  induction n with
  | zero => exact blind_pure _
  | succ n ih => exact blind_bind (blind_grown g _) fun _ => blind_bind ih fun _ => blind_pure _

theorem blind_insertAll (cs : List Gene) : Blind (insertAll cs) := by
  induction cs with
  | nil => exact blind_pure _
  | cons c cs ih => exact blind_bind (blind_insert c) fun _ => ih

theorem blind_settle (g : Grower) (n : Nat) : Blind (settle g n) := by
  induction n with
  | zero => exact blind_pure _
  | succ n ih =>
    exact blind_bind blind_getPool fun _ => blind_bind (blind_grown g _) fun c =>
      blind_bind (blind_insert c) fun _ => ih

theorem blind_close : Blind close :=
  blind_bind (blind_modifyPool _) fun _ => blind_bind blind_getPool fun _ => blind_note _

theorem blind_sow (n : Nat) (g : Grower) : Blind (sow n g) := by
  unfold sow
  cases g.policy with
  | template =>
    exact blind_bind (blind_grownAll g n) fun _ => blind_bind (blind_insertAll _) fun _ => blind_close
  | existingSpecies => exact blind_bind (blind_settle g n) fun _ => blind_close

theorem parallel_entering {α : Type} {a b : Act α} {w v : World}
    (h : Parallel (a (notified w)) (b (notified v))) : Parallel (entering a w) (entering b v) := by
  generalize hw : a (notified w) = rw, hv : b (notified v) = rv at h
  cases h with
  | ok x h =>
    rw [entering_ok hw, entering_ok hv]
    exact .ok x h
  | error f h =>
    rw [entering_error hw, entering_error hv]
    exact .error f ⟨h.pool, h.stream⟩

/-- Seeding does not read the pool that it replaces. -/
theorem parallel_seed (n : Nat) (t : Probability) (g : Grower) {w v : World}
    (h : w.stream = v.stream) : Parallel (seed n t g w) (seed n t g v) := by
  rw [seed_eq, seed_eq]
  apply parallel_entering
  apply (blind_sow n g).parallel
  exact ⟨rfl, (notified_stream w).trans (h.trans (notified_stream v).symm)⟩

/-! ## Seeding by settings -/

theorem of_plan_ok {s : PoolSettings} {t : Probability} {g : Grower}
    (h : plan s = .ok (.ok (t, g))) : g.maximumDepth = s.maximumDepth.toNat :=
  (follows_of_plan h).depth

theorem of_ofList_error {ws : List Float} {f : Fault} (h : Weights.ofList ws = .error f) :
    f = .weightTotal := by
  unfold Weights.ofList at h
  split at h
  · cases h
  · split at h
    · cases h
    · split at h
      · cases h
      · simp only at h
        split at h
        · cases h
        · split at h <;> cases h
          rfl

theorem of_plan_error {s : PoolSettings} {f : Fault} (h : plan s = .error f) :
    f = .weightTotal := by
  unfold plan at h
  split at h
  · cases h
  · split at h
    · cases h
    · cases h
    · split at h
      · cases h
      · split at h
        · rename_i hws
          cases h
          exact of_ofList_error hws
        · cases h
        · cases h

/-- Seeding is all or nothing. Refused settings change nothing, nor do weights whose total is
not finite; settings that are accepted leave just the creatures that they ask for, which
depend on nothing but the settings and the stream, unless a gauge overflows. -/
theorem seedWith_exact (s : PoolSettings) (w : World) :
    match seedWith s w with
    | .ok (.error _) v => v = w
    | .ok (.ok _) v =>
      Populated s.initialCreatures.toNat (s.maximumDepth.toNat + 1) v.pool ∧
      (∃ new : List Gene, v.filed = new ++ w.filed ∧ (new : Multiset Gene) = v.pool.held) ∧
      ∀ w' : World, w'.stream = w.stream →
        ∃ v', seedWith s w' = .ok (.ok ()) v' ∧ v'.pool = v.pool ∧ v'.stream = v.stream
    | .error f v => f = .weightTotal ∧ v = w ∨ f = .sumOverflow := by
  cases hplan : plan s with
  | error f =>
    have hthrow : seedWith s w = .error f w := by
      rw [seedWith, hplan]
      rfl
    rw [hthrow]
    exact .inl ⟨of_plan_error hplan, rfl⟩
  | ok r =>
    cases r with
    | error e =>
      have hrefused : seedWith s w = .ok (.error e) w := by
        rw [seedWith, hplan]
        rfl
      rw [hrefused]
    | ok plan =>
      obtain ⟨t, g⟩ := plan
      have hseed : seedWith s = seed s.initialCreatures.toNat t g >>= fun _ => pure (.ok ()) := by
        rw [seedWith, hplan]
      rw [hseed, ← of_plan_ok hplan]
      cases hs : seed s.initialCreatures.toNat t g w with
      | error f v =>
        rw [bind_error hs]
        exact .inr (of_seed_error hs).1
      | ok u v =>
        rw [bind_ok hs]
        obtain ⟨hpopulated, hfiled⟩ := of_seed_populated hs
        refine ⟨hpopulated, hfiled, ?_⟩
        intro w' hw'
        -- the other world draws the same numbers, and the old pool is never looked at
        have hpar := parallel_seed s.initialCreatures.toNat t g hw'
        rw [hs] at hpar
        generalize hs' : seed s.initialCreatures.toNat t g w' = r at hpar
        cases hpar with
        | ok u' htwin => exact ⟨_, bind_ok hs', htwin.pool, htwin.stream⟩

/-- Two creatures take the place of one whose count was wrong, as they do in an empty pool. -/
theorem seedWith_pair :
    let s : PoolSettings := { initialCreatures := 2, maximumDepth := 1 }
    let p : Pool := { buckets := [(Gene.put.species, ⟨#[.put]⟩)], creatures := ⟨5, 7, 6⟩ }
    ∃ v v', seedWith s { stream := .seeded 7, pool := p } = .ok (.ok ()) v ∧
      Populated 2 2 v.pool ∧ (∃ new : List Gene, v.filed = new ∧ (new : Multiset Gene) = v.pool.held) ∧
      seedWith s { stream := .seeded 7 } = .ok (.ok ()) v' ∧ v'.pool = v.pool := by
  intro s p
  let w : World := { stream := .seeded 7, pool := p }
  have hdone : (match seedWith s w with
    | .ok (.ok _) _ => true
    | _ => false) = true := by decide +kernel
  have hexact := seedWith_exact s w
  split at hdone
  · rename_i v hv
    rw [hv] at hexact
    obtain ⟨hpopulated, ⟨new, hfiled, hnew⟩, hsame⟩ := hexact
    obtain ⟨v', hv', hpool, -⟩ := hsame { stream := .seeded 7 } rfl
    rw [List.append_nil] at hfiled
    exact ⟨v, v', hv, hpopulated, ⟨new, hfiled, hnew⟩, hv', hpool⟩
  · cases hdone

end Pool

end Biotope
