import Biotope.Report
import Biotope.Proofs.Courses
import Biotope.Proofs.Recovery

/-!
# Reports amid other work

Each reading of a report is an access of its own, and others may carry out operations between two
readings. The report is then put together from ten moments of the pool, and the pool need not have
looked like it at any of them. What is left as it is between the readings is shown as it is, and a
gauge is shown in order as long as nobody sets the marks anew.

What another one does comes between two readings as a whole, since it has the pool to itself.
-/

namespace Biotope

open Act

/-! ## Marks that only widen -/

namespace Gauge

structure MarksWithin (g h : Gauge) : Prop where
  low_le : h.low.toInt ≤ g.low.toInt
  le_high : g.high.toInt ≤ h.high.toInt

structure Widens (c : Counting Int64) : Prop where
  of_ok : ∀ {g h : Gauge} {v : Int64}, c g = .ok v h → g.MarksWithin h
  of_error : ∀ {g h : Gauge} {f : Fault}, c g = .error f h → g.MarksWithin h

section
variable {g h k : Gauge}

theorem MarksWithin.refl (g : Gauge) : g.MarksWithin g := ⟨le_rfl, le_rfl⟩

theorem MarksWithin.trans (hgh : g.MarksWithin h) (hhk : h.MarksWithin k) : g.MarksWithin k :=
  ⟨hhk.low_le.trans hgh.low_le, hgh.le_high.trans hhk.le_high⟩

theorem widens_increment : Widens increment := by
  constructor
  · intro g h v hg
    simp only [increment] at hg
    split at hg
    · cases hg
    · cases hg
      refine ⟨le_rfl, ?_⟩
      rw [toInt_max]
      exact le_max_left _ _
  · intro g h f hg
    simp only [increment] at hg
    split at hg
    · cases hg
      exact ⟨le_rfl, le_rfl⟩
    · cases hg

theorem widens_decrement : Widens decrement := by
  constructor
  · intro g h v hg
    simp only [decrement] at hg
    split at hg
    · cases hg
    · cases hg
      refine ⟨?_, le_rfl⟩
      rw [toInt_min]
      exact min_le_left _ _
  · intro g h f hg
    simp only [decrement] at hg
    split at hg
    · cases hg
      exact ⟨le_rfl, le_rfl⟩
    · cases hg

/-- A count between its marks is between marks that were read later. -/
theorem ordered_later (hg : g.Ordered) (hlow : g.MarksWithin h) (hhigh : g.MarksWithin k) :
    (Gauge.mk g.current h.low k.high).Ordered :=
  ⟨hlow.low_le.trans hg.low_le, hg.le_high.trans hhigh.le_high⟩

end

end Gauge

namespace Pool

structure Widened (p q : Pool) : Prop where
  genes_eq : q.genes = p.genes
  species : p.species.MarksWithin q.species
  creatures : p.creatures.MarksWithin q.creatures

section
variable {p q s : Pool}

theorem Widened.refl (p : Pool) : p.Widened p := ⟨rfl, .refl _, .refl _⟩

theorem Widened.trans (h : p.Widened q) (h' : q.Widened s) : p.Widened s :=
  ⟨h'.genes_eq.trans h.genes_eq, h.species.trans h'.species, h.creatures.trans h'.creatures⟩

theorem Widened.setGauge {t : Tally} (ht : t ≠ .genes) {γ : Gauge} (h : p.Widened q)
    (hγ : (q.gauge t).MarksWithin γ) : p.Widened (q.setGauge t γ) := by
  cases t with
  | genes => exact absurd rfl ht
  | species => exact ⟨h.genes_eq, h.species.trans hγ, h.creatures⟩
  | creatures => exact ⟨h.genes_eq, h.species, h.creatures.trans hγ⟩

theorem keeps_widened_count {t : Tally} (ht : t ≠ .genes) {c : Counting Int64}
    (hc : Gauge.Widens c) : Keeps p.Widened (fun _ => p.Widened) (discard (count t c)) := by
  constructor
  · intro w v u hw h
    obtain ⟨n, γ, hγ, rfl⟩ := of_count_ok h
    exact hw.setGauge ht (hc.of_ok hγ)
  · intro w v f hw h
    cases hγ : c (w.pool.gauge t) with
    | ok n γ =>
      rw [count_ok hγ] at h
      cases h
    | error e γ =>
      rw [count_error hγ] at h
      cases h
      exact hw.setGauge ht (hc.of_error hγ)

theorem keeps_widened_modifyPool {f : Pool → Pool} (hf : ∀ q : Pool, q.Widened (f q)) :
    Keeps p.Widened (fun _ => p.Widened) (modifyPool f) :=
  keeps_modifyPool fun q h => h.trans (hf q)

theorem keeps_widened_insert (p : Pool) (g : Gene) :
    Keeps p.Widened (fun _ => p.Widened) (insert g) := by
  have hrecord : Idle (record g) := fun w => ⟨(), _, rfl, rfl⟩
  unfold insert
  refine keeps_bind calm_getPool.keeps fun q => ?_
  refine keeps_bind (keeps_widened_modifyPool fun _ => ⟨rfl, .refl _, .refl _⟩) fun _ => ?_
  refine keeps_bind hrecord.keeps fun _ => ?_
  refine keeps_bind (keeps_widened_count (by decide) Gauge.widens_increment) fun _ => ?_
  refine keeps_ite ?_ (idle_pure _).keeps
  refine keeps_bind (keeps_widened_count (by decide) Gauge.widens_increment) fun _ => ?_
  refine keeps_bind (keeps_widened_modifyPool fun _ => ⟨rfl, .refl _, .refl _⟩) fun _ => ?_
  exact (idle_note _).keeps

theorem keeps_widened_takeFrom (p : Pool) (id : SpeciesId) (s : Species) :
    Keeps p.Widened (fun _ => p.Widened) (takeFrom id s) := by
  unfold takeFrom
  refine keeps_bind (calm_draw _).keeps fun x => ?_
  cases x with
  | none => exact (idle_pure _).keeps
  | some y =>
    refine keeps_bind (keeps_widened_modifyPool fun _ => ⟨rfl, .refl _, .refl _⟩) fun _ => ?_
    refine keeps_bind (keeps_widened_count (by decide) Gauge.widens_decrement) fun _ => ?_
    refine keeps_ite ?_ (idle_pure _).keeps
    refine keeps_bind (keeps_widened_modifyPool fun _ => ⟨rfl, .refl _, .refl _⟩) fun _ => ?_
    refine keeps_bind (keeps_widened_count (by decide) Gauge.widens_decrement) fun _ => ?_
    refine keeps_bind (keeps_widened_modifyPool fun _ => ⟨rfl, .refl _, .refl _⟩) fun _ => ?_
    exact keeps_bind (idle_note _).keeps fun _ => (idle_pure _).keeps

theorem upheld_widened (p : Pool) : Upheld p.Widened fun _ => p.Widened := by
  refine ⟨fun _ _ h => h, fun id => ?_, fun g => keeps_entering (keeps_widened_insert p g)⟩
  rw [take_eq]
  refine keeps_entering (keeps_bind calm_getPool.keeps fun q => keeps_ite (idle_pure _).keeps ?_)
  refine keeps_bind (calm_draw _).keeps fun i => ?_
  unfold takeAt
  cases q.find? i with
  | none => exact (idle_pure _).keeps
  | some s => exact keeps_widened_takeFrom p i s

end

end Pool

namespace Operation

def rewinds : Operation → Bool
  | populate .. | populateWith _ | resetMarks => true
  | _ => false

theorem keeps_widened {op : Operation} (hop : op.rewinds = false) (p : Pool) :
    Keeps p.Widened (fun _ => p.Widened) op.act := by
  have hu := Pool.upheld_widened p
  cases op with
  | populate _ _ _ _ => cases hop
  | populateWith _ => cases hop
  | resetMarks => cases hop
  | put g => exact hu.put g
  | get id => exact keeps_discard (hu.take id)
  | pick => exact keeps_discard Pool.calm_pick.keeps
  | setTemperature t =>
    exact Pool.keeps_setTemperature t fun _ h => ⟨h.genes_eq, h.species, h.creatures⟩
  | flip q => exact keeps_discard (Pool.calm_flip q).keeps
  | snapshot => exact keeps_discard Pool.calm_takeCensus.keeps
  | attend operands => exact (idle_modify (f := ({ · with stack := operands })) fun _ => rfl).keeps
  | process g => exact Program.keeps_run hu g
  | reset => exact Program.keeps_reset hu

end Operation

namespace Pool

theorem widened_courses {p : Pool} : ∀ (ops : List Operation) {w : World},
    (∀ op ∈ ops, op.rewinds = false) → p.Widened w.pool → p.Widened (courses ops w).pool
  | [], _, _, h => h
  | op :: ops, _, hops, h =>
    widened_courses ops (fun o ho => hops o (List.mem_cons_of_mem op ho))
      ((Operation.keeps_widened (hops op List.mem_cons_self) p).reached h)

end Pool

namespace Report

/-! ## A report with others at work -/

def tally (r : Report) : Tally → Gauge
  | .genes => r.genes
  | .species => r.species
  | .creatures => r.creatures

structure Shows (r : Report) (p : Pool) : Prop where
  tally_eq : ∀ t, r.tally t = p.gauge t
  temperature_eq : r.temperature = p.temperature

/-- Others carry out operations. A fault of theirs is no fault for the one who waits. -/
def await (ops : List Operation) : Act Unit := fun w => .ok () (courses ops w)

def gaugeAmid (t : Tally) (before after : List Operation) : Act Gauge := do
  let current ← reading t Gauge.current
  await before
  let low ← reading t Gauge.low
  await after
  let high ← reading t Gauge.high
  return ⟨current, low, high⟩

/-- A report is captured, and after each of its readings but the last one others carry out the
operations of that number. -/
def captureAmid (engine : Engine) (others : Nat → List Operation) : Act Report := do
  let genes ← gaugeAmid .genes (others 0) (others 1)
  await (others 2)
  let species ← gaugeAmid .species (others 3) (others 4)
  await (others 5)
  let creatures ← gaugeAmid .creatures (others 6) (others 7)
  await (others 8)
  let temperature ← Pool.getTemperature
  return ⟨genes, species, creatures, temperature, .of engine, engine.generations⟩

def moment (others : Nat → List Operation) (w : World) : Nat → World
  | 0 => w
  | i + 1 => courses (others i) (notified (moment others w i))

/-- The pool is in this state at some time from the first reading to the last one. -/
def Passed (others : Nat → List Operation) (w : World) (p : Pool) : Prop :=
  ∃ i < 9, ∃ ops, ops <+: others i ∧ (courses ops (notified (moment others w i))).pool = p

def firstReading : Tally → Nat
  | .genes => 0
  | .species => 3
  | .creatures => 6

def gaugeOf (p : Nat → Pool) (t : Tally) : Gauge :=
  ⟨((p (firstReading t)).gauge t).current, ((p (firstReading t + 1)).gauge t).low,
    ((p (firstReading t + 2)).gauge t).high⟩

def ofMoments (engine : Engine) (p : Nat → Pool) : Report :=
  ⟨gaugeOf p .genes, gaugeOf p .species, gaugeOf p .creatures, (p 9).temperature, .of engine,
    engine.generations⟩

section
variable (others : Nat → List Operation) (w : World)

/-- A look at the pool yields what is there and changes nothing, also after a fault. -/
theorem observe_eq {α : Type} (f : Pool → α) :
    Act.entering (do return f (← getPool)) w = .ok (f w.pool) (notified w) := by
  refine entering_ok ?_
  show EStateM.Result.ok (f (notified w).pool) (notified w) = _
  rw [notified_pool]

theorem reading_eq (t : Tally) (mark : Gauge → Int64) :
    reading t mark w = .ok (mark (w.pool.gauge t)) (notified w) :=
  observe_eq w fun p => mark (p.gauge t)

theorem getTemperature_eq : Pool.getTemperature w = .ok w.pool.temperature (notified w) :=
  observe_eq w Pool.temperature

theorem gaugeAmid_eq (t : Tally) (before after : List Operation) :
    let u := courses before (notified w)
    let v := courses after (notified u)
    gaugeAmid t before after w =
      .ok ⟨(w.pool.gauge t).current, (u.pool.gauge t).low, (v.pool.gauge t).high⟩ (notified v) := by
  intro u v
  exact (bind_ok (reading_eq w t _)).trans <| (bind_ok rfl).trans <|
    (bind_ok (reading_eq u t _)).trans <| (bind_ok rfl).trans <| bind_ok (reading_eq v t _)

theorem captureAmid_eq (engine : Engine) : captureAmid engine others w =
    .ok (ofMoments engine fun i => (moment others w i).pool) (notified (moment others w 9)) :=
  (bind_ok (gaugeAmid_eq w ..)).trans <| (bind_ok rfl).trans <|
    (bind_ok (gaugeAmid_eq (moment others w 3) ..)).trans <| (bind_ok rfl).trans <|
      (bind_ok (gaugeAmid_eq (moment others w 6) ..)).trans <| (bind_ok rfl).trans <|
        bind_ok (getTemperature_eq (moment others w 9))

theorem passed_moment {i : Nat} (hi : i ≤ 9) : Passed others w (moment others w i).pool := by
  cases i with
  | zero => exact ⟨0, by decide, [], List.nil_prefix, notified_pool w⟩
  | succ i => exact ⟨i, hi, others i, List.prefix_rfl, rfl⟩

end

section
variable {others : Nat → List Operation} {w : World}
  (hops : ∀ i < 9, ∀ op ∈ others i, op.rewinds = false)
include hops

theorem widened_moment {i : Nat} : ∀ {j : Nat}, i ≤ j → j ≤ 9 →
    (moment others w i).pool.Widened (moment others w j).pool := by
  intro j hij
  induction j, hij using Nat.le_induction with
  | base => exact fun _ => .refl _
  | succ j _ ih =>
    intro hj
    refine Pool.widened_courses (others j) (hops j hj) ?_
    rw [notified_pool]
    exact ih (Nat.le_of_succ_le hj)

theorem sound_moment (hw : w.pool.Sound)
    (hplay : ∀ i < 9, InPlay (others i) (notified (moment others w i))) :
    ∀ i ≤ 9, (moment others w i).pool.Sound
  | 0, _ => hw
  | i + 1, hi => by
    have hnow := sound_moment hw hplay i (Nat.le_of_succ_le hi)
    have hgenes := (widened_moment (w := w) hops (Nat.le_succ i) hi).genes_eq
    have htallied : (notified (moment others w i)).pool.Tallied := by
      rw [notified_pool]
      exact hnow.tallied
    refine Pool.sound_iff.mpr ⟨(Pool.tallied_courses htallied (hplay i hi)).1, ?_⟩
    rw [hgenes]
    exact hnow.genes_ordered

end

/-- The readings of a report are taken at ten moments, one after another, and the report that is
captured with nobody else at work is the case where nothing happens in between. A gauge or the
temperature that stays the same meanwhile is shown so. If no one sets the marks anew, the genes of
a sound pool are shown exactly and every count between its marks. -/
theorem captured_amid (engine : Engine) (others : Nat → List Operation) (w : World) :
    let p := fun i => (moment others w i).pool
    let r := ofMoments engine p
    captureAmid engine (fun _ => []) = capture engine ∧
    captureAmid engine others w = .ok r (notified (moment others w 9)) ∧
    (∀ i ≤ 9, Passed others w (p i)) ∧
    (∀ t, (∀ q, Passed others w q → q.gauge t = w.pool.gauge t) → r.tally t = w.pool.gauge t) ∧
    ((∀ q, Passed others w q → q.temperature = w.pool.temperature) →
      r.temperature = w.pool.temperature) ∧
    (w.pool.Sound → (∀ i < 9, ∀ op ∈ others i, op.rewinds = false) →
      (∀ i < 9, InPlay (others i) (notified (moment others w i))) →
      r.genes = w.pool.genes ∧ ∀ t, (r.tally t).Ordered) := by
  intro p r
  have hpassed {i : Nat} (hi : i ≤ 9) : Passed others w (p i) := passed_moment others w hi
  refine ⟨rfl, captureAmid_eq others w engine, fun i => hpassed, fun t ht => ?_, fun h => ?_,
    fun hw hops hplay => ?_⟩
  · have htally : r.tally t = gaugeOf p t := by cases t <;> rfl
    have hfirst : firstReading t ≤ 6 := by cases t <;> decide
    rw [htally, gaugeOf, ht _ (hpassed (by omega)), ht _ (hpassed (by omega)),
      ht _ (hpassed (by omega))]
  · exact h _ (hpassed le_rfl)
  · have hsound := sound_moment hops hw hplay
    have hwiden {i j : Nat} (hij : i ≤ j) (hj : j ≤ 9) : (p i).Widened (p j) :=
      widened_moment hops hij hj
    have hgenes {i : Nat} (hi : i ≤ 9) : (p i).genes = w.pool.genes :=
      (hwiden (Nat.zero_le i) hi).genes_eq
    -- only a seeding grows genes, so all three readings see one gauge
    have hshown : r.genes = w.pool.genes := by
      show Gauge.mk (p 0).genes.current (p 1).genes.low (p 2).genes.high = _
      rw [hgenes (by decide), hgenes (by decide), hgenes (by decide)]
    refine ⟨hshown, fun t => ?_⟩
    cases t with
    | genes =>
      show r.genes.Ordered
      rw [hshown]
      exact hw.genes_ordered
    | species =>
      -- the marks are read later than the count and have only gone further apart
      exact Gauge.ordered_later (hsound 3 (by decide)).species_ordered
        (hwiden (by decide) (by decide)).species (hwiden (by decide) (by decide)).species
    | creatures =>
      exact Gauge.ordered_later (hsound 6 (by decide)).creatures_ordered
        (hwiden (by decide) (by decide)).creatures (hwiden (by decide) (by decide)).creatures

def putAmid (i : Nat) : List Operation :=
  if i = 3 then [.put .merge] else []

theorem captured_amid_put :
    let r := ofMoments {} fun i => (moment putAmid default i).pool
    (default : World).pool.Sound ∧ (∀ i < 9, ∀ op ∈ putAmid i, op.rewinds = false) ∧
      (∀ i < 9, InPlay (putAmid i) (notified (moment putAmid default i))) ∧
      r.genes = {} ∧ ∀ t, (r.tally t).Ordered := by
  intro r
  have hsound : (default : World).pool.Sound := Pool.sound_empty _
  have hops : ∀ i < 9, ∀ op ∈ putAmid i, op.rewinds = false := by
    intro i _ op hop
    unfold putAmid at hop
    split at hop
    · rw [List.mem_singleton.mp hop]
      rfl
    · cases hop
  have hplay : ∀ i < 9, InPlay (putAmid i) (notified (moment putAmid default i)) := by
    intro i _
    by_cases h : i = 3
    · subst h
      have hcard : (moment putAmid default 4).pool.held.card = 1 := rfl
      exact ⟨(by omega : (moment putAmid default 4).pool.held.card < 2 ^ 63), trivial⟩
    · rw [putAmid, if_neg h]
      trivial
  obtain ⟨-, -, -, -, -, h⟩ := captured_amid {} putAmid default
  obtain ⟨hgenes, hordered⟩ := h hsound hops hplay
  exact ⟨hsound, hops, hplay, hgenes, hordered⟩

/-- With the marks set anew in between, a count is shown below its own marks. -/
example :
    let others := fun i => if i = 3 then [.put .merge, .resetMarks] else []
    (ofMoments {} fun i => (moment others default i).pool).species = ⟨0, 1, 1⟩ := rfl

theorem moment_putAmid : ∀ i < 10, (moment putAmid default i).pool.species =
    if i ≤ 3 then {} else ⟨1, 0, 1⟩ := by
  intro i hi
  interval_cases i <;> rfl

/-- The pool has no species before and one after, and the report shows none with a high mark of
one. -/
theorem capture_torn :
    (default : World).pool.Sound ∧ ∃ r v, captureAmid {} putAmid default = .ok r v ∧
      r.species = ⟨0, 0, 1⟩ ∧ r.creatures = ⟨1, 0, 1⟩ ∧
      ∀ p, Passed putAmid default p → ¬ r.Shows p := by
  have hspecies : (ofMoments {} fun i => (moment putAmid default i).pool).species = ⟨0, 0, 1⟩ := rfl
  refine ⟨Pool.sound_empty _, _, _, captureAmid_eq putAmid default {}, hspecies, rfl, ?_⟩
  rintro p ⟨i, hi, ops, hops, hp⟩ hshows
  have hshown : p.species = ⟨0, 0, 1⟩ := (hshows.tally_eq .species).symm
  have hnot : ∀ j < 10, p = (moment putAmid default j).pool → False := by
    intro j hj hpool
    rw [hpool, moment_putAmid j hj] at hshown
    split at hshown <;> exact absurd hshown (by decide)
  -- one operation at most, so the pool is as at this moment or as at the next one
  have hends : ops = [] ∨ ops = putAmid i := by
    unfold putAmid at hops ⊢
    split_ifs at hops ⊢
    · rcases List.prefix_cons_iff.mp hops with hnil | ⟨t, rfl, ht⟩
      · exact .inl hnil
      · exact .inr (by rw [List.prefix_nil.mp ht])
    · exact .inl (List.prefix_nil.mp hops)
  rcases hends with rfl | rfl
  · exact hnot i (by omega) (hp.symm.trans (notified_pool _))
  · exact hnot (i + 1) (by omega) hp.symm

end Report

end Biotope
