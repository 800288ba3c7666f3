import Mathlib
import Biotope.Settings.Keeper

/-!
# Keepers and valid settings

A keeper begins with settings that are valid, and it checks whatever a load or an edit would
install. So its settings are valid at all times, and a request that fails, wherever it
fails, leaves no trace.
-/

namespace Biotope

namespace Settings

theorem check?_default : ({} : Settings).check? = none := Option.isNone_iff_eq_none.mp (by decide +kernel)

theorem checked_eq_ok_iff {s t : Settings} : s.checked = .ok t ↔ t = s ∧ s.check? = none := by
  unfold checked
  cases s.check? with
  | none => simp [eq_comm]
  | some e => simp

theorem checked_eq_error_iff {s : Settings} {f : Failure} :
    s.checked = .error f ↔ ∃ e, s.check? = some e ∧ f = .settings e := by
  unfold checked
  cases s.check? with
  | none => simp
  | some e => simp [eq_comm]

/-- Nothing comes out of a load that has not passed the check. -/
theorem check?_of_load {file : Option SettingsFile} {environment : List (String × String)}
    {s : Settings} (h : load file environment = .ok s) : s.check? = none := by
  unfold load at h
  cases hl : (layer file environment >>= ofLayer).mapError Failure.source with
  | error f => rw [hl] at h; cases h
  | ok t =>
    rw [hl] at h
    obtain ⟨rfl, ht⟩ := checked_eq_ok_iff.mp h
    exact ht

end Settings

inductive Outcome (s : Settings) : SettingsRequest → SettingsReply → Settings → Prop where
  | loaded {file : Option SettingsFile} {environment : List (String × String)} {t : Settings}
      (h : Settings.load file environment = .ok t) (ht : t.check? = none) :
      Outcome s (.load file environment) .installed t
  | unloaded {file : Option SettingsFile} {environment : List (String × String)} {f : Failure}
      (h : Settings.load file environment = .error f) :
      Outcome s (.load file environment) (.refused f) s
  | edited {edit : Settings → Except Fault Settings} {t : Settings} (h : edit s = .ok t)
      (ht : t.check? = none) : Outcome s (.update edit) .installed t
  | rejected {edit : Settings → Except Fault Settings} {t : Settings} {e : SettingsError}
      (h : edit s = .ok t) (ht : t.check? = some e) :
      Outcome s (.update edit) (.refused (.settings e)) s
  | brokenOff {edit : Settings → Except Fault Settings} {f : Fault} (h : edit s = .error f) :
      Outcome s (.update edit) (.brokenOff f) s
  | saved {text : String} (h : s.save = .ok text) : Outcome s .save (.saved text) s
  | unsaved {f : Failure} (h : s.save = .error f) : Outcome s .save (.refused f) s

def SettingsReply.failed : SettingsReply → Bool
  | refused _ | brokenOff _ => true
  | installed | saved _ => false

namespace Outcome

variable {s t : Settings} {r : SettingsRequest} {reply : SettingsReply}

theorem valid (h : Outcome s r reply t) (hs : s.check? = none) : t.check? = none := by
  cases h with
  | loaded _ ht | edited _ ht => exact ht
  | unloaded _ | rejected _ _ | brokenOff _ | saved _ | unsaved _ => exact hs

theorem eq_of_failed (h : Outcome s r reply t) (hf : reply.failed = true) : t = s := by
  cases h with
  | loaded _ _ | edited _ _ => simp [SettingsReply.failed] at hf
  | unloaded _ | rejected _ _ | brokenOff _ | saved _ | unsaved _ => rfl

end Outcome

namespace Keeper

/-! ## One request -/

theorem outcome_perform (k : Keeper) (r : SettingsRequest) :
    Outcome k.settings r (k.perform r).2 (k.perform r).1.settings := by
  cases r with
  | load file environment =>
    simp only [perform]
    cases h : Settings.load file environment with
    | ok t => exact .loaded h (Settings.check?_of_load h)
    | error f => exact .unloaded h
  | update edit =>
    simp only [perform]
    cases h : edit k.settings with
    | error f => exact .brokenOff h
    | ok t =>
      cases ht : t.check? with
      | none =>
        have hc : t.checked = .ok t := Settings.checked_eq_ok_iff.mpr ⟨rfl, ht⟩
        simp only [hc, install]
        exact .edited h ht
      | some e =>
        have hc : t.checked = .error (.settings e) := Settings.checked_eq_error_iff.mpr ⟨e, ht, rfl⟩
        simp only [hc, install]
        exact .rejected h ht
  | save =>
    simp only [perform]
    cases h : k.settings.save with
    | ok text => exact .saved h
    | error f => exact .unsaved h

/-- A keeper that loads has no say in what comes of it. -/
theorem perform_load_congr {k : Keeper} {file : Option SettingsFile}
    {environment : List (String × String)}
    (h : (k.perform (.load file environment)).2 = .installed) (j : Keeper) :
    j.perform (.load file environment) = k.perform (.load file environment) := by
  simp only [perform] at h ⊢
  cases hl : Settings.load file environment with
  | ok t => rfl
  | error f => rw [hl] at h; cases h

/-! ## Courses of requests -/

def after : List SettingsRequest → Keeper → Keeper
  | [], k => k
  | r :: rs, k => after rs (k.perform r).1

theorem after_valid (requests : List SettingsRequest) {k : Keeper} (h : k.settings.check? = none) :
    (after requests k).settings.check? = none := by
  induction requests generalizing k with
  | nil => exact h
  | cons r rs ih => exact ih ((outcome_perform k r).valid h)

/-- After any course of requests the settings are valid. A request that fails then, because of
a source, the check, the edit or the format, leaves them as they are, and what a load
installs would be the same in any other keeper. -/
theorem after_course (requests : List SettingsRequest) :
    let k := after requests {}
    k.settings.check? = none ∧
      (∀ r, (k.perform r).1.settings.check? = none ∧
        ((k.perform r).2.failed = true → (k.perform r).1.settings = k.settings)) ∧
      ∀ file environment, (k.perform (.load file environment)).2 = .installed →
        ∀ j : Keeper, j.perform (.load file environment) = k.perform (.load file environment) := by
  intro k
  have hk : k.settings.check? = none := after_valid requests Settings.check?_default
  refine ⟨hk, fun r => ?_, fun file environment h j => perform_load_congr h j⟩
  have hr := outcome_perform k r
  exact ⟨hr.valid hk, hr.eq_of_failed⟩

end Keeper

end Biotope
