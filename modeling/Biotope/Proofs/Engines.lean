import Biotope.Proofs.Crews

/-!
# Engines in order

An engine is in order if its count is that of the workers that are registered and have not
exited, and if nobody is alive whom neither evolution nor the call that is carried out looks
after. Every event keeps it so.
-/

namespace Biotope

def Activity.ahead : Activity → Bool
  | starting _ _ ahead => ahead
  | none | retreating .. | stopping => false

def EngineEvent.isSpawned : EngineEvent → Bool
  | spawned => true
  | _ => false

namespace Engine

/-! ## What an event does -/

/-- The events that are possible, with their effects and replies. -/
inductive Effect (e : Engine) : EngineEvent → Engine → Option Reply → Prop where
  | noWorkers : Effect e (.start 0) e (some (.error .noWorkers))
  | already {wanted : UInt64} (hidle : e.activity = .none) (he : e.evolving = true)
      (hw : wanted ≠ 0) : Effect e (.start wanted) e (some (.ok ()))
  | start {wanted : UInt64} (hidle : e.activity = .none) (he : e.evolving = false)
      (hw : wanted ≠ 0) :
      Effect e (.start wanted)
        { e with
          crews := e.crews ++ [Crew.empty]
          generations := 0
          activity := .starting e.crews.length wanted false } none
  | registered {k : Nat} {wanted : UInt64} (ha : e.activity = .starting k wanted false)
      (hroom : (e.crew k).workers.length < wanted.toNat) :
      Effect e .registered { e with count := e.count + 1, activity := .starting k wanted true } none
  | spawned {k : Nat} {wanted : UInt64} (ha : e.activity = .starting k wanted true) :
      Effect e .spawned
        { e with crews := e.crews.modify k .spawn, activity := .starting k wanted false } none
  | refused {k : Nat} {wanted : UInt64} {reason : String}
      (ha : e.activity = .starting k wanted true) :
      Effect e (.refused reason)
        { e with
          crews := e.crews.modify k .cancel
          count := e.count - 1
          activity := .retreating k (.noWorker (e.crew k).workers.length reason) } none
  | launched {k : Nat} {wanted : UInt64} (ha : e.activity = .starting k wanted false)
      (hfull : wanted.toNat ≤ (e.crew k).workers.length) :
      Effect e .launched { e with evolving := true, held := k, activity := .none } (some (.ok ()))
  | exited {k index : Nat} {fault : Option Fault} (hk : k < e.crews.length)
      (hexits : (e.crew k).exits index fault = true) :
      Effect e (.exited k index fault)
        { e with crews := e.crews.modify k (·.exit index), count := e.count - 1 } none
  | counted (h : e.alive ≠ 0) :
      Effect e .counted { e with generations := e.generations + 1 } none
  | stop (hidle : e.activity = .none) (he : e.evolving = true) :
      Effect e .stop { e with crews := e.crews.modify e.held .cancel, activity := .stopping } none
  | idle (hidle : e.activity = .none) (he : e.evolving = false) :
      Effect e .stop e (some (.ok ()))
  | retreated {k : Nat} {failure : Failure} (ha : e.activity = .retreating k failure)
      (hk : (e.crew k).alive = 0) :
      Effect e .joined { e with activity := .none } (some (.error failure))
  | stopped (ha : e.activity = .stopping) (hk : (e.crew e.held).alive = 0) :
      Effect e .joined { e with evolving := false, activity := .none } (some (.ok ()))

theorem of_step {e u : Engine} {event : EngineEvent} {reply : Option Reply}
    (h : e.step event = some (u, reply)) : Effect e event u reply := by
  cases event with
  | start wanted =>
    simp only [step] at h
    split at h
    · rename_i hw
      cases h
      exact hw ▸ .noWorkers
    · rename_i hw
      split at h
      · rename_i hidle
        split at h
        · rename_i he
          cases h
          exact .already hidle he hw
        · rename_i he
          cases h
          exact .start hidle (by simpa using he) hw
      · cases h
  | registered =>
    simp only [step] at h
    split at h
    · rename_i ha
      split at h
      · rename_i hroom
        cases h
        exact .registered ha hroom
      · cases h
    · cases h
  | spawned =>
    simp only [step] at h
    split at h
    · rename_i ha
      cases h
      exact .spawned ha
    · cases h
  | refused reason =>
    simp only [step] at h
    split at h
    · rename_i ha
      cases h
      exact .refused ha
    · cases h
  | launched =>
    simp only [step] at h
    split at h
    · rename_i ha
      split at h
      · cases h
      · rename_i hfull
        cases h
        exact .launched ha (Nat.le_of_not_lt hfull)
    · cases h
  | exited k index fault =>
    simp only [step] at h
    split at h
    · rename_i hexits
      cases h
      -- an index past the crews stands for a crew in which nobody can exit
      have hk : k < e.crews.length := by
        by_contra hge
        rw [crew, List.getD_eq_getElem?_getD, List.getElem?_eq_none (by omega)] at hexits
        cases hexits
      exact .exited hk hexits
    · cases h
  | counted =>
    simp only [step] at h
    split at h
    · cases h
    · rename_i halive
      cases h
      exact .counted halive
  | stop =>
    simp only [step] at h
    split at h
    · rename_i hidle
      split at h
      · rename_i he
        cases h
        exact .stop hidle he
      · rename_i he
        cases h
        exact .idle hidle (by simpa using he)
    · cases h
  | joined =>
    simp only [step] at h
    split at h
    · rename_i ha
      split at h
      · rename_i hk
        cases h
        exact .retreated ha hk
      · cases h
    · rename_i ha
      split at h
      · rename_i hk
        cases h
        exact .stopped ha hk
      · cases h
    · cases h

/-! ## Engines in order -/

def registered (e : Engine) : Nat := e.alive + e.activity.ahead.toNat

def Only (e : Engine) (k : Nat) : Prop := ∀ j, j ≠ k → (e.crew j).alive = 0

/-- Who can be alive during an activity, and which crew has been told to exit. -/
def Fits (e : Engine) : Activity → Prop
  | .none => e.Only e.held ∧ (e.evolving = false → (e.crew e.held).alive = 0)
  | .starting k wanted ahead => e.evolving = false ∧ k < e.crews.length ∧ e.Only k ∧
      (e.crew k).workers.length + ahead.toNat ≤ wanted.toNat
  | .retreating k _ => e.evolving = false ∧ k < e.crews.length ∧ e.Only k ∧
      (e.crew k).cancelled = true
  | .stopping => e.evolving = true ∧ e.Only e.held ∧ (e.crew e.held).cancelled = true

structure Orderly (e : Engine) : Prop where
  held : e.held < e.crews.length
  counted : e.active = e.registered
  fits : e.Fits e.activity

section
variable {e u : Engine} {k : Nat}

theorem Only.nobody (h : e.Only k) (hk : (e.crew k).alive = 0) (j : Nat) :
    (e.crew j).alive = 0 := by
  by_cases hj : j = k
  · exact hj ▸ hk
  · exact h j hj

theorem alive_of_only (hk : k < e.crews.length) (h : e.Only k) : e.alive = (e.crew k).alive := by
  have htotal := Crew.allAlive_modify hk fun _ => Crew.empty
  have hzero : Crew.allAlive (e.crews.modify k fun _ => Crew.empty) = 0 := by
    refine Crew.allAlive_eq_zero fun c hc => ?_
    obtain ⟨j, hj, rfl⟩ := List.mem_iff_getElem.mp hc
    rw [← List.getD_eq_getElem _ Crew.empty hj]
    by_cases hjk : j = k
    · rw [hjk, Crew.getD_modify_self hk]
      rfl
    · rw [Crew.getD_modify_of_ne hjk]
      exact h j hjk
  have hempty : Crew.empty.alive = 0 := rfl
  rw [hzero, hempty] at htotal
  rw [alive, crew]
  omega

theorem orderly_initial : Orderly {} where
  held := Nat.one_pos
  counted := rfl
  fits := by
    have hempty (j : Nat) : (({} : Engine).crew j).alive = 0 := by
      cases j <;> rfl
    exact ⟨fun j _ => hempty j, fun _ => hempty 0⟩

end

/-! ## Steps -/

section
variable {e u : Engine} {k index : Nat}

theorem alive_exited (hk : k < e.crews.length) (h : (e.crew k).workers[index]? = some true) :
    Crew.allAlive (e.crews.modify k (·.exit index)) + 1 = e.alive := by
  have htotal := Crew.allAlive_modify hk (·.exit index)
  have hexit : ((e.crew k).exit index).alive + 1 = (e.crew k).alive := Crew.alive_exit h
  rw [crew] at hexit
  rw [alive]
  omega

theorem toNat_pred {n : UInt64} (h : 0 < n.toNat) : (n - 1).toNat + 1 = n.toNat := by
  have hle : (1 : UInt64) ≤ n := UInt64.le_iff_toNat_le.mpr h
  rw [UInt64.toNat_sub_of_le _ _ hle]
  exact Nat.sub_add_cancel h

theorem toNat_succ {n : UInt64} {m : UInt64} (h : n.toNat < m.toNat) :
    (n + 1).toNat = n.toNat + 1 := by
  have := m.toNat_lt
  rw [UInt64.toNat_add]
  exact Nat.mod_eq_of_lt (by simpa using by omega)

/-- An exit can only make a crew smaller. -/
theorem Fits.exited {a : Activity} {n : UInt64} (h : e.Fits a) :
    Fits { e with crews := e.crews.modify k (·.exit index), count := n } a := by
  set v : Engine := { e with crews := e.crews.modify k (·.exit index), count := n }
  have hcrew (j : Nat) : v.crew j = e.crew j ∨ v.crew j = (e.crew j).exit index := by
    by_cases hj : j = k
    · subst hj
      rcases Nat.lt_or_ge j e.crews.length with hlt | hge
      · exact .inr (Crew.getD_modify_self hlt _)
      · refine .inl ?_
        show (e.crews.modify j (·.exit index)).getD j .empty = e.crews.getD j .empty
        rw [List.modify_eq_self hge]
    · exact .inl (Crew.getD_modify_of_ne hj _ _)
  have hlength : v.crews.length = e.crews.length := List.length_modify ..
  have halive (j : Nat) : (v.crew j).alive ≤ (e.crew j).alive := by
    rcases hcrew j with hj | hj <;> rw [hj]
    exact Crew.alive_exit_le _ _
  have honly (i : Nat) (ho : e.Only i) : v.Only i :=
    fun j hj => Nat.le_zero.mp (ho j hj ▸ halive j)
  have hsame (j : Nat) : (v.crew j).workers.length = (e.crew j).workers.length ∧
      (v.crew j).cancelled = (e.crew j).cancelled := by
    rcases hcrew j with hj | hj <;> rw [hj]
    · exact ⟨rfl, rfl⟩
    · exact ⟨Crew.length_exit _ _, rfl⟩
  cases a with
  | none => exact ⟨honly _ h.1, fun he => Nat.le_zero.mp (h.2 he ▸ halive e.held)⟩
  | starting i wanted ahead =>
    obtain ⟨he, hi, ho, hroom⟩ := h
    exact ⟨he, hlength ▸ hi, honly _ ho, (hsame i).1 ▸ hroom⟩
  | retreating i failure =>
    obtain ⟨he, hi, ho, hc⟩ := h
    exact ⟨he, hlength ▸ hi, honly _ ho, (hsame i).2 ▸ hc⟩
  | stopping =>
    obtain ⟨he, ho, hc⟩ := h
    exact ⟨he, honly _ ho, (hsame e.held).2 ▸ hc⟩

/-- To change the crew that somebody may be alive in leaves the others with nobody. -/
theorem Only.modify {f : Crew → Crew} (h : e.Only k) (j : Nat) (hj : j ≠ k) :
    ((e.crews.modify k f).getD j .empty).alive = 0 := by
  rw [Crew.getD_modify_of_ne hj]
  exact h j hj

theorem alive_cancelled (hk : k < e.crews.length) :
    Crew.allAlive (e.crews.modify k .cancel) = e.alive :=
  Nat.add_right_cancel (Crew.allAlive_modify hk .cancel)

/-- An event leaves an engine in order. -/
theorem Orderly.effect {event : EngineEvent} {reply : Option Reply} (h : Orderly e)
    (hs : Effect e event u reply) : Orderly u := by
  obtain ⟨hheld, hcounted, hfits⟩ := h
  rw [registered] at hcounted
  cases hs with
  | noWorkers | already | idle | counted => exact ⟨hheld, hcounted, hfits⟩
  | start hidle he _ =>
    rw [hidle] at hfits hcounted
    have hcrew (j : Nat) : (e.crews ++ [Crew.empty]).getD j .empty = e.crew j :=
      Crew.getD_append _ _
    have hnobody := hfits.1.nobody (hfits.2 he)
    -- the new crew is as empty as the place behind the last one was
    have hnew : ((e.crews ++ [Crew.empty]).getD e.crews.length .empty).workers.length = 0 := by
      rw [hcrew, crew, List.getD_eq_default _ _ le_rfl]
      rfl
    refine ⟨?_, ?_, he, ?_, fun j _ => ?_, ?_⟩
    · exact hheld.trans (by simp)
    · show e.active = Crew.allAlive (e.crews ++ [Crew.empty]) + 0
      rw [hcounted, Crew.allAlive_append]
      rfl
    · simp
    · exact (congrArg Crew.alive (hcrew j)).trans (hnobody j)
    · show ((e.crews ++ [Crew.empty]).getD e.crews.length .empty).workers.length + 0 ≤ _
      omega
  | @registered k wanted ha hroom =>
    rw [ha] at hfits hcounted
    obtain ⟨he, hk, honly, -⟩ := hfits
    -- only this crew is alive and it is not full yet, so the count has room for one more
    have hlt : e.count.toNat < wanted.toNat := by
      have := (e.crew k).alive_le
      have := alive_of_only hk honly
      have : e.count.toNat = e.alive + 0 := hcounted
      omega
    refine ⟨hheld, ?_, he, hk, honly, hroom⟩
    show (e.count + 1).toNat = e.alive + 1
    rw [toNat_succ hlt]
    exact congrArg (· + 1) hcounted
  | @spawned k wanted ha =>
    rw [ha] at hfits hcounted
    obtain ⟨he, hk, honly, hroom⟩ := hfits
    have hnew : (e.crews.modify k .spawn).getD k .empty = (e.crew k).spawn :=
      Crew.getD_modify_self hk _
    refine ⟨by simpa using hheld, ?_, he, by simpa using hk, honly.modify, ?_⟩
    · have htotal := Crew.allAlive_modify hk .spawn
      rw [Crew.alive_spawn, ← add_assoc, add_right_comm] at htotal
      exact hcounted.trans (Nat.add_right_cancel htotal).symm
    · show ((e.crews.modify k .spawn).getD k .empty).workers.length + 0 ≤ _
      rw [hnew, Crew.length_spawn]
      exact hroom
  | @refused k wanted reason ha =>
    rw [ha] at hfits hcounted
    obtain ⟨he, hk, honly, -⟩ := hfits
    -- the worker that is counted ahead never came to life
    have hpos : e.count.toNat = e.alive + 1 := hcounted
    refine ⟨by simpa using hheld, ?_, he, by simpa using hk, honly.modify, ?_⟩
    · show (e.count - 1).toNat = Crew.allAlive (e.crews.modify k .cancel) + 0
      have := toNat_pred (n := e.count) (by omega)
      rw [alive_cancelled hk]
      omega
    · exact congrArg Crew.cancelled (Crew.getD_modify_self hk Crew.cancel)
  | launched ha hfull =>
    rw [ha] at hfits hcounted
    obtain ⟨-, hk, honly, -⟩ := hfits
    exact ⟨hk, hcounted, honly, fun h => nomatch h⟩
  | @exited k index fault hk hexits =>
    refine ⟨by simpa using hheld, ?_, hfits.exited⟩
    show (e.count - 1).toNat =
      Crew.allAlive (e.crews.modify k (·.exit index)) + e.activity.ahead.toNat
    have hexit := alive_exited hk (Crew.exits_iff.mp hexits).1
    have hcount : e.count.toNat = e.alive + e.activity.ahead.toNat := hcounted
    have := toNat_pred (n := e.count) (by omega)
    omega
  | stop hidle he =>
    rw [hidle] at hfits hcounted
    refine ⟨by simpa using hheld, ?_, he, hfits.1.modify, ?_⟩
    · show e.active = Crew.allAlive (e.crews.modify e.held .cancel) + 0
      rw [alive_cancelled hheld]
      exact hcounted
    · exact congrArg Crew.cancelled (Crew.getD_modify_self hheld Crew.cancel)
  | @retreated k failure ha hk =>
    rw [ha] at hfits hcounted
    obtain ⟨-, -, honly, -⟩ := hfits
    have hnobody := honly.nobody hk
    exact ⟨hheld, hcounted, fun j _ => hnobody j, fun _ => hnobody e.held⟩
  | stopped ha hk =>
    rw [ha] at hfits hcounted
    exact ⟨hheld, hcounted, hfits.2.1, fun _ => hk⟩

end

structure Idle (e : Engine) : Prop where
  activity : e.activity = .none
  evolving : e.evolving = false
  alive : e.alive = 0
  active : e.active = 0

theorem Orderly.idle {e : Engine} (h : Orderly e) (ha : e.activity = .none)
    (he : e.evolving = false) : e.Idle := by
  have hfits := h.fits
  have hcounted := h.counted
  rw [ha] at hfits
  rw [registered, ha] at hcounted
  have halive := (alive_of_only h.held hfits.1).trans (hfits.2 he)
  exact ⟨ha, he, halive, hcounted.trans halive⟩

end Engine

end Biotope
