import Mathlib
import Biotope.Pool.Exchange

/-!
# Running acts

Acts run one after another until one breaks off. An act keeps a property of the pool if
the property still holds when the act is done; what holds when it breaks off may be less.
-/

namespace Biotope

/-- The world that a course of events has reached, done or broken off. -/
def reached {α} : EStateM.Result Fault World α → World
  | .ok _ v | .error _ v => v

@[simp]
theorem reached_ok {α} (x : α) (v : World) : reached (.ok x v) = v := rfl

namespace Act

variable {α β : Type}

/-! ## One act after another -/

theorem bind_ok {a : Act α} {f : α → Act β} {w v : World} {x : α} (h : a w = .ok x v) :
    (a >>= f) w = f x v := by
  show EStateM.bind a f w = f x v
  rw [EStateM.bind, h]

theorem bind_error {a : Act α} {f : α → Act β} {w v : World} {e : Fault} (h : a w = .error e v) :
    (a >>= f) w = .error e v := by
  show EStateM.bind a f w = .error e v
  rw [EStateM.bind, h]

theorem done_bind {a : Act α} {f : α → Act β} {w v : World} {x : α} (h : a w = .ok x v)
    (hf : ∃ y u, f x v = .ok y u) : ∃ y u, (a >>= f) w = .ok y u := by
  rw [bind_ok h]
  exact hf

theorem of_bind_ok {a : Act α} {f : α → Act β} {w v : World} {y : β} (h : (a >>= f) w = .ok y v) :
    ∃ x u, a w = .ok x u ∧ f x u = .ok y v := by
  cases ha : a w with
  | ok x u => rw [bind_ok ha] at h; exact ⟨x, u, rfl, h⟩
  | error e u => rw [bind_error ha] at h; cases h

theorem of_pure_ok {x y : α} {w v : World} (h : (pure x : Act α) w = .ok y v) : x = y ∧ w = v := by
  cases h
  exact ⟨rfl, rfl⟩

theorem discard_eq (a : Act α) : (discard a : Act PUnit) = a >>= fun _ => pure ⟨⟩ := rfl

theorem draw_ok {d : Draw α} {w : World} {x : α} {τ : Stream} (h : d w.stream = (x, τ)) :
    draw d w = .ok x { w with stream := τ } := by
  simp only [draw, h]

/-! ## Gauges -/

theorem count_ok {t : Tally} {c : Counting Int64} {w : World} {n : Int64} {g : Gauge}
    (h : c (w.pool.gauge t) = .ok n g) :
    discard (count t c) w = .ok ⟨⟩ { w with pool := w.pool.setGauge t g } := by
  show EStateM.map _ (count t c) w = _
  simp only [EStateM.map, count, h]

theorem count_error {t : Tally} {c : Counting Int64} {w : World} {e : Fault} {g : Gauge}
    (h : c (w.pool.gauge t) = .error e g) :
    discard (count t c) w = .error e { w with pool := w.pool.setGauge t g } := by
  show EStateM.map _ (count t c) w = _
  simp only [EStateM.map, count, h]

theorem of_count_ok {t : Tally} {c : Counting Int64} {w v : World} {u : PUnit}
    (h : discard (count t c) w = .ok u v) :
    ∃ n g, c (w.pool.gauge t) = .ok n g ∧ v = { w with pool := w.pool.setGauge t g } := by
  cases hc : c (w.pool.gauge t) with
  | ok n g => rw [count_ok hc] at h; cases h; exact ⟨n, g, rfl, rfl⟩
  | error e g => rw [count_error hc] at h; cases h

/-! ## Entering the pool -/

def notified (w : World) : World :=
  if w.poisoned then { w with journal := w.journal.push .recovered } else w

theorem entering_eq (a : Act α) (w : World) :
    entering a w = match a (notified w) with
      | .ok x v => .ok x v
      | .error f v => .error f { v with poisoned := true } := rfl

theorem entering_ok {a : Act α} {w v : World} {x : α} (h : a (notified w) = .ok x v) :
    entering a w = .ok x v := by
  rw [entering_eq, h]

theorem entering_error {a : Act α} {w v : World} {f : Fault} (h : a (notified w) = .error f v) :
    entering a w = .error f { v with poisoned := true } := by
  rw [entering_eq, h]

theorem done_entering {a : Act α} {w : World} (h : ∃ x v, a (notified w) = .ok x v) :
    ∃ x v, entering a w = .ok x v := by
  obtain ⟨x, v, h⟩ := h
  exact ⟨x, v, entering_ok h⟩

theorem of_entering_ok {a : Act α} {w v : World} {x : α} (h : entering a w = .ok x v) :
    a (notified w) = .ok x v := by
  cases ha : a (notified w) with
  | ok y u => rw [entering_ok ha] at h; exact h
  | error f u => rw [entering_error ha] at h; cases h

theorem of_entering_error {a : Act α} {w v : World} {f : Fault} (h : entering a w = .error f v) :
    ∃ u, a (notified w) = .error f u ∧ v = { u with poisoned := true } := by
  cases ha : a (notified w) with
  | ok y u => rw [entering_ok ha] at h; cases h
  | error e u => rw [entering_error ha] at h; cases h; exact ⟨u, rfl, rfl⟩

structure Frame (w v : World) : Prop where
  stack : v.stack = w.stack
  generations : v.generations = w.generations
  drill : v.drill = w.drill
  chance : w.service = .chance → v.service = .chance

theorem Frame.refl (w : World) : Frame w w := ⟨rfl, rfl, rfl, id⟩

theorem Frame.trans {w u v : World} (h₁ : Frame w u) (h₂ : Frame u v) : Frame w v :=
  ⟨h₂.stack.trans h₁.stack, h₂.generations.trans h₁.generations, h₂.drill.trans h₁.drill,
    h₂.chance ∘ h₁.chance⟩

theorem frame_stream (w : World) (τ : Stream) : Frame w { w with stream := τ } :=
  ⟨rfl, rfl, rfl, id⟩

@[simp]
theorem notified_pool (w : World) : (notified w).pool = w.pool := by
  unfold notified; split <;> rfl

@[simp]
theorem notified_filed (w : World) : (notified w).filed = w.filed := by
  unfold notified; split <;> rfl

@[simp]
theorem notified_stream (w : World) : (notified w).stream = w.stream := by
  unfold notified; split <;> rfl

theorem frame_notified (w : World) : Frame w (notified w) := by
  unfold notified; split <;> exact ⟨rfl, rfl, rfl, id⟩

/-! ## Keeping a property of the pool -/

/-- From a pool with `P` the act ends in one with `P`, or breaks off in one with `E`. -/
structure Keeps (P : Pool → Prop) (E : Fault → Pool → Prop) (a : Act α) : Prop where
  of_ok : ∀ {w v : World} {x : α}, P w.pool → a w = .ok x v → P v.pool
  of_error : ∀ {w v : World} {f : Fault}, P w.pool → a w = .error f v → E f v.pool

def Idle (a : Act α) : Prop := ∀ w : World, ∃ x v, a w = .ok x v ∧ v.pool = w.pool

variable {P : Pool → Prop} {E : Fault → Pool → Prop}

theorem Idle.pool_eq {a : Act α} (h : Idle a) {w v : World} {x : α} (hv : a w = .ok x v) :
    v.pool = w.pool := by
  obtain ⟨y, u, ha, hp⟩ := h w
  rw [ha] at hv
  cases hv
  exact hp

theorem Idle.keeps {a : Act α} (h : Idle a) : Keeps P E a := by
  refine ⟨fun hw hv => h.pool_eq hv ▸ hw, fun {w v f} _ hv => ?_⟩
  obtain ⟨y, u, ha, -⟩ := h w
  rw [ha] at hv
  cases hv

theorem keeps_bind {a : Act α} {f : α → Act β} (ha : Keeps P E a) (hf : ∀ x, Keeps P E (f x)) :
    Keeps P E (a >>= f) := by
  constructor
  · intro w v y hw h
    obtain ⟨x, u, h1, h2⟩ := of_bind_ok h
    exact (hf x).of_ok (ha.of_ok hw h1) h2
  · intro w v e hw h
    cases hu : a w with
    | ok x u => exact (hf x).of_error (ha.of_ok hw hu) ((bind_ok hu).symm.trans h)
    | error e' u =>
      cases (bind_error hu).symm.trans h
      exact ha.of_error hw hu

theorem keeps_discard {a : Act α} (ha : Keeps P E a) : Keeps P E (discard a) := by
  rw [discard_eq]
  refine keeps_bind ha fun x => ⟨fun hw h => ?_, fun _ h => by cases h⟩
  cases h
  exact hw

theorem keeps_modifyPool {f : Pool → Pool} (h : ∀ p, P p → P (f p)) : Keeps P E (modifyPool f) :=
  ⟨fun hw hv => by cases hv; exact h _ hw, fun _ hv => by cases hv⟩

theorem keeps_entering {a : Act α} (ha : Keeps P E a) : Keeps P E (entering a) := by
  constructor
  · intro w v x hw h
    exact ha.of_ok (by rw [notified_pool]; exact hw) (of_entering_ok h)
  · intro w v f hw h
    obtain ⟨u, hu, rfl⟩ := of_entering_error h
    have hp : P (notified w).pool := by rw [notified_pool]; exact hw
    exact ha.of_error (v := u) hp hu

theorem keeps_ite {c : Prop} [Decidable c] {a b : Act α} (ha : Keeps P E a) (hb : Keeps P E b) :
    Keeps P E (if c then a else b) := by
  split
  · exact ha
  · exact hb

/-! ## Tosses and readings -/

/-- What an act that only tosses or reads leaves alone. -/
structure Undisturbed (w v : World) : Prop where
  pool : v.pool = w.pool
  filed : v.filed = w.filed
  frame : Frame w v

theorem Undisturbed.refl (w : World) : Undisturbed w w := ⟨rfl, rfl, .refl w⟩

theorem Undisturbed.trans {w u v : World} (h₁ : Undisturbed w u) (h₂ : Undisturbed u v) :
    Undisturbed w v :=
  ⟨h₂.pool.trans h₁.pool, h₂.filed.trans h₁.filed, h₁.frame.trans h₂.frame⟩

theorem undisturbed_notified (w : World) : Undisturbed w (notified w) :=
  ⟨notified_pool w, notified_filed w, frame_notified w⟩

/-- The act is always done, disturbs nothing and ends with a result as described. -/
def Calm (a : Act α) (Q : α → Prop) : Prop :=
  ∀ w, ∃ x v, a w = .ok x v ∧ Undisturbed w v ∧ Q x

section
variable {Q : α → Prop} {R : β → Prop} {a : Act α}

theorem Calm.idle (h : Calm a Q) : Idle a := fun w =>
  let ⟨x, v, hv, hu, _⟩ := h w
  ⟨x, v, hv, hu.pool⟩

theorem Calm.keeps (h : Calm a Q) : Keeps P E a := h.idle.keeps

theorem calm_pure {x : α} (h : Q x) : Calm (pure x) Q := fun w => ⟨x, w, rfl, .refl w, h⟩

theorem calm_bind {f : α → Act β} (ha : Calm a Q) (hf : ∀ x, Q x → Calm (f x) R) :
    Calm (a >>= f) R := by
  intro w
  obtain ⟨x, u, hx, hu, hq⟩ := ha w
  obtain ⟨y, v, hy, hv, hr⟩ := hf x hq u
  exact ⟨y, v, (bind_ok hx).trans hy, hu.trans hv, hr⟩

theorem calm_ite {c : Prop} [Decidable c] {b : Act α} (ha : Calm a Q) (hb : Calm b Q) :
    Calm (if c then a else b) Q := by
  split
  · exact ha
  · exact hb

theorem calm_entering (ha : Calm a Q) : Calm (entering a) Q := by
  intro w
  obtain ⟨x, v, hx, hv, hq⟩ := ha (notified w)
  exact ⟨x, v, entering_ok hx, (undisturbed_notified w).trans hv, hq⟩

end

theorem calm_draw (d : Draw α) : Calm (draw d) fun _ => True :=
  fun w => ⟨_, _, rfl, ⟨rfl, rfl, frame_stream w _⟩, trivial⟩

theorem calm_getPool : Calm getPool fun _ => True := fun w => ⟨_, _, rfl, .refl w, trivial⟩

/-! ## Acts that do not touch the pool -/

theorem idle_pure (x : α) : Idle (pure x) := fun w => ⟨x, w, rfl, rfl⟩

theorem idle_note (n : Notice) : Idle (note n) := fun _ => ⟨_, _, rfl, rfl⟩

theorem idle_modify {f : World → World} (h : ∀ w, (f w).pool = w.pool) :
    Idle (modify f : Act PUnit) :=
  fun w => ⟨⟨⟩, f w, rfl, h w⟩

end Act

namespace Pool

open Act

theorem calm_getTemperature : Calm getTemperature fun _ => True :=
  calm_entering (calm_bind calm_getPool fun _ _ => calm_pure trivial)

theorem calm_flip (p : Probability) : Calm (flip p) fun _ => True :=
  calm_bind calm_getTemperature fun _ _ => calm_draw _

theorem calm_pick : Calm pick fun _ => True :=
  calm_entering (calm_bind calm_getPool fun _ _ => calm_draw _)

theorem calm_liveSpecies : Calm liveSpecies fun _ => True :=
  calm_entering (calm_bind calm_getPool fun _ _ => calm_pure trivial)

theorem calm_assign (id : SpeciesId) : Calm (assign id) fun x => id ≠ .any → x = some id := by
  unfold assign
  by_cases hid : id = .any
  · have hpos : ¬ (!id.isAny) = true := by simp [SpeciesId.isAny, hid]
    rw [if_neg hpos]
    have hany {x : Option SpeciesId} : id ≠ .any → x = some id := fun h => absurd hid h
    intro w
    rw [bind_ok (show (get : Act World) w = .ok w w from rfl)]
    cases hs : w.service with
    | chance => exact ⟨some id, w, rfl, .refl w, hany⟩
    | closed => exact ⟨none, w, rfl, .refl w, hany⟩
    | turns limit served =>
      simp only
      by_cases hlimit : limit ≤ served
      · rw [if_pos hlimit]
        exact ⟨none, w, rfl, .refl w, hany⟩
      · rw [if_neg hlimit]
        obtain ⟨ids, u, hids, hu, -⟩ := calm_liveSpecies w
        rw [bind_ok hids]
        cases ids[served % ids.length]? with
        | none => exact ⟨none, u, rfl, hu, hany⟩
        | some i =>
          -- the count of turns goes up: a frame only says that chance stays chance
          have hturns : w.service ≠ .chance := by simp [hs]
          exact ⟨some i, _, rfl, ⟨hu.pool, hu.filed, ⟨hu.frame.stack, hu.frame.generations,
            hu.frame.drill, fun h => absurd h hturns⟩⟩, hany⟩
  · have hpos : (!id.isAny) = true := by simp [SpeciesId.isAny, hid]
    rw [if_pos hpos]
    exact calm_pure fun _ => rfl

end Pool

end Biotope
