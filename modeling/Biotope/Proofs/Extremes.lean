import Biotope.Proofs.Gauges

/-!
# Extremes

The marks of a gauge are the extremes of what it has held since they were last set. A step moves
only the mark that it can pass, which is enough as long as the count lies between the two. Only
a count that leaves the range of 64 bits ends a course of steps.
-/

namespace Biotope.Gauge

/-! ## Steps -/

inductive Step where
  | increment
  | decrement
  | add (amount : Int64)
  | resetMarks
  /-- Back to zero, and the marks with it. -/
  | reset
deriving DecidableEq, Repr

namespace Step

def reply {α : Type} : Step → α → Option α
  | increment, v | decrement, v | add _, v => some v
  | resetMarks, _ | reset, _ => none

theorem map_reply {α β : Type} (f : α → β) (s : Step) (v : α) :
    (s.reply v).map f = s.reply (f v) := by cases s <;> rfl

def perform : Step → Counting (Option Int64)
  | increment => do return some (← Gauge.increment)
  | decrement => do return some (← Gauge.decrement)
  | add amount => do return some (← Gauge.add amount)
  | resetMarks => fun g => .ok none g.resetMarks
  | reset => fun _ => .ok none {}

end Step

def run (steps : List Step) : Counting (List (Option Int64)) := steps.mapM Step.perform

/-! ## Records -/

/-- A count in whole numbers without end. -/
structure Record where
  current : Int
  /-- What has been counted since the marks were last set, the last first. -/
  since : List Int

namespace Record

def start (n : Int) : Record := ⟨n, [n]⟩

def reach (r : Record) (n : Int) : Record := ⟨n, n :: r.since⟩

def after (r : Record) : Step → Record
  | .increment => r.reach (r.current + 1)
  | .decrement => r.reach (r.current - 1)
  | .add amount => r.reach (r.current + amount.toInt)
  | .resetMarks => start r.current
  | .reset => start 0

def afterAll (r : Record) (steps : List Step) : Record := steps.foldl after r

def Fits (r : Record) : Prop := Gauge.fits r.current = true

def replies : List Step → Record → List (Option Int)
  | [], _ => []
  | s :: ss, r => s.reply (r.after s).current :: replies ss (r.after s)

end Record

structure Shows (g : Gauge) (r : Record) : Prop where
  current : g.current.toInt = r.current
  held : r.current ∈ r.since
  low : IsLeast {n | n ∈ r.since} g.low.toInt
  high : IsGreatest {n | n ∈ r.since} g.high.toInt

namespace Shows

variable {g g' : Gauge} {r : Record}

theorem ordered (h : Shows g r) : g.Ordered :=
  ⟨h.low.2 (h.current ▸ h.held), h.high.2 (h.current ▸ h.held)⟩

theorem start (v : Int64) : Shows (ofValue v) (.start v.toInt) := by
  refine ⟨rfl, List.mem_singleton_self _, ?_, ?_⟩
  · simp [Record.start, ofValue]
  · simp [Record.start, ofValue]

theorem reach (h : Shows g r) {n : Int} (hn : g'.current.toInt = n)
    (hlow : g'.low.toInt = min n g.low.toInt) (hhigh : g'.high.toInt = max n g.high.toInt) :
    Shows g' (r.reach n) := by
  have hset : {m | m ∈ (r.reach n).since} = insert n {m | m ∈ r.since} := by
    ext m
    exact List.mem_cons
  refine ⟨hn, List.mem_cons_self, ?_, ?_⟩
  · rw [hset, hlow]
    exact h.low.insert n
  · rw [hset, hhigh]
    exact h.high.insert n

end Shows

/-! ## One step -/

section
variable {α β : Type} {c : EStateM Fault Gauge α} {f : α → EStateM Fault Gauge β} {g g' : Gauge}

theorem bind_ok {v : α} (h : c g = .ok v g') : (c >>= f) g = f v g' := by
  show EStateM.bind c f g = _
  rw [EStateM.bind, h]

theorem bind_error {e : Fault} (h : c g = .error e g') : (c >>= f) g = .error e g' := by
  show EStateM.bind c f g = _
  rw [EStateM.bind, h]

end

theorem fits_iff {n : Int} : fits n = true ↔ -2 ^ 63 ≤ n ∧ n < 2 ^ 63 := by
  simp only [fits, Bool.and_eq_true, decide_eq_true_eq, minValue_toInt, maxValue_toInt]
  omega

section
variable {g : Gauge} {r : Record} (h : Shows g r)
include h

theorem increment_shows (hfits : (r.after .increment).Fits) :
    ∃ g', increment g = .ok g'.current g' ∧ Shows g' (r.after .increment) := by
  have hlt : r.current + 1 < 2 ^ 63 := (fits_iff.mp hfits).2
  have hne : g.current ≠ Int64.maxValue := by
    rintro he
    rw [← h.current, he, maxValue_toInt] at hlt
    omega
  have hv : (g.current + 1).toInt = r.current + 1 := by
    rw [← h.current]
    exact toInt_add_of_fits (by rw [h.current]; exact hfits)
  refine ⟨{ g with current := g.current + 1, high := max g.high (g.current + 1) },
    by simp only [increment, if_neg hne], h.reach hv ?_ ?_⟩
  · have := h.ordered.low_le
    show g.low.toInt = min (r.current + 1) g.low.toInt
    rw [h.current] at this
    omega
  · rw [toInt_max, hv, max_comm]

theorem decrement_shows (hfits : (r.after .decrement).Fits) :
    ∃ g', decrement g = .ok g'.current g' ∧ Shows g' (r.after .decrement) := by
  have hle : -2 ^ 63 ≤ r.current - 1 := (fits_iff.mp hfits).1
  have hne : g.current ≠ Int64.minValue := by
    rintro he
    rw [← h.current, he, minValue_toInt] at hle
    omega
  have hv : (g.current - 1).toInt = r.current - 1 := by
    rw [← h.current]
    exact toInt_sub_one (by rw [h.current]; omega)
  refine ⟨{ g with current := g.current - 1, low := min g.low (g.current - 1) },
    by simp only [decrement, if_neg hne], h.reach hv ?_ ?_⟩
  · rw [toInt_min, hv, min_comm]
  · have := h.ordered.le_high
    show g.high.toInt = max (r.current - 1) g.high.toInt
    rw [h.current] at this
    omega

theorem add_shows {amount : Int64} (hfits : (r.after (.add amount)).Fits) :
    ∃ g', add amount g = .ok g'.current g' ∧ Shows g' (r.after (.add amount)) := by
  have hsum : fits (g.current.toInt + amount.toInt) = true := by
    rw [h.current]
    exact hfits
  have hv : (g.current + amount).toInt = r.current + amount.toInt := by
    rw [toInt_add_of_fits hsum, h.current]
  refine ⟨⟨g.current + amount, min g.low (g.current + amount), max g.high (g.current + amount)⟩,
    by simp only [add, if_pos hsum], h.reach hv ?_ ?_⟩
  · rw [toInt_min, hv, min_comm]
  · rw [toInt_max, hv, max_comm]

theorem perform_shows {s : Step} (hfits : (r.after s).Fits) :
    ∃ g', s.perform g = .ok (s.reply g'.current) g' ∧ Shows g' (r.after s) := by
  cases s with
  | increment =>
    obtain ⟨g', hg, hs⟩ := increment_shows h hfits
    exact ⟨g', bind_ok hg, hs⟩
  | decrement =>
    obtain ⟨g', hg, hs⟩ := decrement_shows h hfits
    exact ⟨g', bind_ok hg, hs⟩
  | add amount =>
    obtain ⟨g', hg, hs⟩ := add_shows h hfits
    exact ⟨g', bind_ok hg, hs⟩
  | resetMarks =>
    refine ⟨g.resetMarks, rfl, ?_⟩
    rw [Record.after, ← h.current]
    exact .start g.current
  | reset => exact ⟨{}, rfl, .start 0⟩

/-- A step that would lead out of the range breaks off. -/
theorem perform_overflow {s : Step} (hfits : ¬ (r.after s).Fits) :
    ∃ f g', s.perform g = .error f g' := by
  have hlow := g.current.minValue_le_toInt
  have hhigh := g.current.toInt_le
  rw [h.current, minValue_toInt] at hlow
  rw [h.current, maxValue_toInt] at hhigh
  have hout := mt fits_iff.mpr hfits
  cases s with
  | increment =>
    -- a count that leaves the range by one stood at the end of it
    have hmax : g.current = Int64.maxValue := by
      rw [← Int64.toInt_inj, maxValue_toInt, h.current]
      simp only [Record.after, Record.reach] at hout
      omega
    exact ⟨_, _, bind_error (increment_max hmax)⟩
  | decrement =>
    have hmin : g.current = Int64.minValue := by
      rw [← Int64.toInt_inj, minValue_toInt, h.current]
      simp only [Record.after, Record.reach] at hout
      omega
    exact ⟨_, _, bind_error (decrement_min hmin)⟩
  | add amount =>
    have hsum : ¬ fits (g.current.toInt + amount.toInt) = true := by
      rw [h.current]
      exact hfits
    exact ⟨_, _, bind_error (by simp only [add, if_neg hsum]; rfl)⟩
  | resetMarks =>
    simp only [Record.after, Record.start] at hout
    omega
  | reset =>
    simp only [Record.after, Record.start] at hout
    omega

end

/-! ## Courses of steps -/

def Record.Stays (r : Record) (steps : List Step) : Prop :=
  ∀ done, done <+: steps → (r.afterAll done).Fits

instance (r : Record) : Decidable r.Fits := inferInstanceAs (Decidable (_ = true))

instance (r : Record) (steps : List Step) : Decidable (r.Stays steps) :=
  decidable_of_iff (∀ done ∈ steps.inits, (r.afterAll done).Fits) (by simp [Record.Stays])

theorem Record.stays_cons {r : Record} {s : Step} {ss : List Step} :
    r.Stays (s :: ss) ↔ r.Fits ∧ (r.after s).Stays ss := by
  constructor
  · exact fun h => ⟨h [] List.nil_prefix, fun t ht => h (s :: t) ((List.prefix_cons_inj s).mpr ht)⟩
  · rintro ⟨hr, hss⟩ t ht
    cases t with
    | nil => exact hr
    | cons s' t =>
      obtain ⟨rfl, hts⟩ := List.cons_prefix_cons.mp ht
      exact hss t hts

section
variable {g : Gauge} {r : Record}

theorem Shows.fits (h : Shows g r) : r.Fits := by
  rw [Record.Fits, ← h.current]
  exact fits_iff.mpr ⟨minValue_toInt ▸ g.current.minValue_le_toInt, g.current.toInt_lt⟩

theorem run_cons (s : Step) (ss : List Step) : run (s :: ss) = do
    let x ← s.perform
    let xs ← run ss
    return x :: xs := List.mapM_cons

theorem run_shows (h : Shows g r) {steps : List Step} (hstays : r.Stays steps) :
    ∃ xs g', run steps g = .ok xs g' ∧ Shows g' (r.afterAll steps) ∧
      xs.map (·.map Int64.toInt) = Record.replies steps r := by
  induction steps generalizing g r with
  | nil => exact ⟨[], g, rfl, h, rfl⟩
  | cons s ss ih =>
    obtain ⟨-, hss⟩ := Record.stays_cons.mp hstays
    obtain ⟨g', hg, hs⟩ := perform_shows h (hss [] List.nil_prefix)
    obtain ⟨xs, g'', hg', hs', hxs⟩ := ih hs hss
    refine ⟨s.reply g'.current :: xs, g'', ?_, hs', ?_⟩
    · rw [run_cons, bind_ok hg, bind_ok hg']
      rfl
    · rw [List.map_cons, hxs, Step.map_reply, hs.current]
      rfl

theorem run_overflow (h : Shows g r) {steps : List Step} (hstays : ¬ r.Stays steps) :
    ∃ f g', run steps g = .error f g' := by
  induction steps generalizing g r with
  | nil =>
    refine absurd (fun t ht => ?_) hstays
    rw [List.prefix_nil.mp ht]
    exact h.fits
  | cons s ss ih =>
    rw [run_cons]
    by_cases hfits : (r.after s).Fits
    · obtain ⟨g', hg, hs⟩ := perform_shows h hfits
      obtain ⟨f, g'', hg'⟩ := ih hs fun hss => hstays (Record.stays_cons.mpr ⟨h.fits, hss⟩)
      exact ⟨f, g'', by rw [bind_ok hg, bind_error hg']⟩
    · obtain ⟨f, g', hg⟩ := perform_overflow h hfits
      exact ⟨f, g', bind_error hg⟩

end

/-- A course of steps goes through unless the count leaves the range. Wherever it has got to then,
the marks are the least and the greatest of the counts since they were last set, and the steps
have replied with the counts that they led to. -/
theorem run_extremes (v : Int64) (steps : List Step) :
    let start := Record.start v.toInt
    let r := start.afterAll steps
    ((∃ xs g, run steps (ofValue v) = .ok xs g) ↔ start.Stays steps) ∧
      ∀ xs g, run steps (ofValue v) = .ok xs g →
        g.current.toInt = r.current ∧ r.current ∈ r.since ∧
          IsLeast {n | n ∈ r.since} g.low.toInt ∧ IsGreatest {n | n ∈ r.since} g.high.toInt ∧
          g.low ≤ g.current ∧ g.current ≤ g.high ∧
          xs.map (·.map Int64.toInt) = Record.replies steps start := by
  intro start r
  have hrun (hstays : start.Stays steps) := run_shows (.start v) hstays
  have hstays {xs : List (Option Int64)} {g : Gauge} (h : run steps (ofValue v) = .ok xs g) :
      start.Stays steps := by
    by_contra hout
    obtain ⟨f, g', hg⟩ := run_overflow (.start v) hout
    rw [hg] at h
    cases h
  refine ⟨⟨fun ⟨xs, g, h⟩ => hstays h, fun h => ?_⟩, fun xs g h => ?_⟩
  · obtain ⟨xs, g, hg, -⟩ := hrun h
    exact ⟨xs, g, hg⟩
  · obtain ⟨ys, g', hg, hs, hys⟩ := hrun (hstays h)
    cases hg.symm.trans h
    have hordered := hs.ordered
    exact ⟨hs.current, hs.held, hs.low, hs.high, Int64.le_iff_toInt_le.mpr hordered.low_le,
      Int64.le_iff_toInt_le.mpr hordered.le_high, hys⟩

/-- The marks are set anew at 7, and what was before is forgotten. -/
theorem run_extremes_anew :
    let steps : List Step := [.add (-9), .add 11, .resetMarks, .decrement, .increment, .add (-2)]
    (Record.start 5).Stays steps ∧ ((Record.start 5).afterAll steps).since = [5, 7, 6, 7] ∧
      ∃ xs g, run steps (ofValue 5) = .ok xs g ∧ g.low.toInt = 5 ∧ g.high.toInt = 7 ∧
        xs.map (·.map Int64.toInt) = [some (-4), some 7, none, some 6, some 7, some 5] := by
  intro steps
  have hstays : (Record.start 5).Stays steps := by decide
  have hsince : ((Record.start 5).afterAll steps).since = [5, 7, 6, 7] := by decide
  obtain ⟨hdone, hmarks⟩ := run_extremes 5 steps
  obtain ⟨xs, g, hg⟩ := hdone.mpr hstays
  obtain ⟨-, -, hlow, hhigh, -, -, hxs⟩ := hmarks xs g hg
  refine ⟨hstays, hsince, xs, g, hg, ?_, ?_, hxs.trans (by decide)⟩
  · refine hlow.unique ?_
    show IsLeast {n | n ∈ ((Record.start 5).afterAll steps).since} 5
    simp [hsince, IsLeast, lowerBounds]
  · refine hhigh.unique ?_
    show IsGreatest {n | n ∈ ((Record.start 5).afterAll steps).since} 7
    simp [hsince, IsGreatest, upperBounds]

end Biotope.Gauge
