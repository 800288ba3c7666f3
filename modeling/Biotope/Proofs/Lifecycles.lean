import Biotope.Proofs.Engines

/-!
# Lifecycles

Calls come in any order, workers exit and are refused at any time. A call that ends leaves an
engine that evolves with a full crew, or one with nobody alive. `start` and `stop` are such
calls, carried through without a break.
-/

namespace Biotope

namespace Engine

/-! ## Runs -/

inductive Reachable : Engine → Prop where
  | initial : Reachable {}
  | step {e u : Engine} {reply : Option Reply} (h : Reachable e) (event : EngineEvent)
      (hs : e.step event = some (u, reply)) : Reachable u

theorem Reachable.orderly {e : Engine} (h : Reachable e) : Orderly e := by
  induction h with
  | initial => exact orderly_initial
  | step _ _ hs ih => exact ih.effect (of_step hs)

/-- The call that is carried out goes on through the events and ends with the reply. Workers
may exit meanwhile, and calls for no workers are answered. -/
inductive Call : Engine → List EngineEvent → Reply → Engine → Prop where
  | last {e v : Engine} {event : EngineEvent} {reply : Reply} (hbusy : e.activity ≠ .none)
      (hs : e.step event = some (v, some reply)) (hidle : v.activity = .none) :
      Call e [event] reply v
  | next {e u v : Engine} {event : EngineEvent} {events : List EngineEvent}
      {answer : Option Reply} {reply : Reply} (hs : e.step event = some (u, answer))
      (hbusy : u.activity ≠ .none) (h : Call u events reply v) : Call e (event :: events) reply v

/-! ## How calls end -/

section
variable {e u v : Engine} {event : EngineEvent} {events : List EngineEvent} {reply : Reply}
  {answer : Option Reply} {k : Nat} {wanted : UInt64} {failure : Failure}

/-- A retreat goes on until everybody has exited. -/
theorem Effect.of_retreating (h : Effect e event u answer)
    (ha : e.activity = .retreating k failure) : (∀ reason, event ≠ .refused reason) ∧
      (u.activity = .retreating k failure ∨
        u.activity = .none ∧ u.evolving = e.evolving ∧ answer = some (.error failure)) := by
  cases h with
  | noWorkers | exited | counted => exact ⟨(fun _ h => nomatch h), .inl ha⟩
  | retreated ha' =>
    cases ha.symm.trans ha'
    exact ⟨(fun _ h => nomatch h), .inr ⟨rfl, rfl, rfl⟩⟩
  | already ha' | start ha' | registered ha' | spawned ha' | refused ha' | launched ha' | stop ha'
  | idle ha' | stopped ha' => cases ha.symm.trans ha'

theorem Effect.of_stopping (h : Effect e event u answer) (ha : e.activity = .stopping) :
    u.activity = .stopping ∨
      u.activity = .none ∧ u.evolving = false ∧ answer = some (.ok ()) := by
  cases h with
  | noWorkers | exited | counted => exact .inl ha
  | stopped => exact .inr ⟨rfl, rfl, rfl⟩
  | already ha' | start ha' | registered ha' | spawned ha' | refused ha' | launched ha' | stop ha'
  | idle ha' | retreated ha' => cases ha.symm.trans ha'

/-- A start goes on until a worker is refused or all are there. -/
theorem Effect.of_starting {ahead : Bool} (h : Effect e event u answer) (ho : Orderly e)
    (ha : e.activity = .starting k wanted ahead) :
    (∃ ahead', u.activity = .starting k wanted ahead') ∧ (∀ reason, event ≠ .refused reason) ∧
        (u.crew k).workers.length = (e.crew k).workers.length + event.isSpawned.toNat ∨
      (∃ reason, event = .refused reason ∧
        u.activity = .retreating k (.noWorker (e.crew k).workers.length reason)) ∨
      event = .launched ∧ u.activity = .none ∧ u.evolving = true ∧
        u.workers.length = wanted.toNat ∧ answer = some (.ok ()) := by
  have hfits := ho.fits
  rw [ha] at hfits
  obtain ⟨-, hk, -, hroom⟩ := hfits
  cases h with
  | noWorkers | counted => exact .inl ⟨⟨_, ha⟩, (fun _ h => nomatch h), rfl⟩
  | registered ha' =>
    cases ha.symm.trans ha'
    exact .inl ⟨⟨_, rfl⟩, (fun _ h => nomatch h), rfl⟩
  | spawned ha' =>
    cases ha.symm.trans ha'
    refine .inl ⟨⟨_, rfl⟩, (fun _ h => nomatch h), ?_⟩
    show ((e.crews.modify k .spawn).getD k .empty).workers.length = _
    rw [Crew.getD_modify_self hk, Crew.length_spawn]
    rfl
  | refused ha' =>
    cases ha.symm.trans ha'
    exact .inr (.inl ⟨_, rfl, rfl⟩)
  | launched ha' hfull =>
    cases ha.symm.trans ha'
    exact .inr (.inr ⟨rfl, rfl, rfl, le_antisymm hroom hfull, rfl⟩)
  | @exited j index _ hj _ =>
    refine .inl ⟨⟨_, ha⟩, (fun _ h => nomatch h), ?_⟩
    show ((e.crews.modify j (·.exit index)).getD k .empty).workers.length = _
    by_cases hjk : k = j
    · rw [hjk, Crew.getD_modify_self hj, Crew.length_exit]
      rfl
    · rw [Crew.getD_modify_of_ne hjk]
      rfl
  | already ha' | start ha' | stop ha' | idle ha' | retreated ha' | stopped ha' =>
    cases ha.symm.trans ha'

theorem Call.of_retreating (h : Call e events reply v) (ho : Orderly e)
    (ha : e.activity = .retreating k failure) :
    (∀ reason, .refused reason ∉ events) ∧ reply = .error failure ∧ v.Idle := by
  induction h with
  | last _ hs hidle =>
    have heffect := of_step hs
    obtain ⟨hevent, hu | ⟨hu, hevolving, hanswer⟩⟩ := heffect.of_retreating ha
    · cases hidle.symm.trans hu
    · cases hanswer
      have hfits := ho.fits
      rw [ha] at hfits
      refine ⟨fun reason hr => hevent reason (List.mem_singleton.mp hr).symm, rfl, ?_⟩
      exact (ho.effect heffect).idle hu (hevolving.trans hfits.1)
  | next hs hbusy _ ih =>
    have heffect := of_step hs
    obtain ⟨hevent, hu | ⟨hu, -⟩⟩ := heffect.of_retreating ha
    · obtain ⟨hevents, hend⟩ := ih (ho.effect heffect) hu
      refine ⟨fun reason hr => ?_, hend⟩
      rcases List.mem_cons.mp hr with hr | hr
      · exact hevent reason hr.symm
      · exact hevents reason hr
    · exact absurd hu hbusy

theorem Call.of_stopping (h : Call e events reply v) (ho : Orderly e)
    (ha : e.activity = .stopping) : reply = .ok () ∧ v.Idle := by
  induction h with
  | last _ hs hidle =>
    have heffect := of_step hs
    rcases heffect.of_stopping ha with hu | ⟨hu, hevolving, hanswer⟩
    · cases hidle.symm.trans hu
    · cases hanswer
      exact ⟨rfl, (ho.effect heffect).idle hu hevolving⟩
  | next hs hbusy _ ih =>
    have heffect := of_step hs
    rcases heffect.of_stopping ha with hu | ⟨hu, -⟩
    · exact ih (ho.effect heffect) hu
    · exact absurd hu hbusy

/-- The start of a crew that nobody is refused to ends with a full crew. -/
theorem Call.launched {ahead : Bool} (h : Call e events reply v) (ho : Orderly e)
    (ha : e.activity = .starting k wanted ahead) (hnone : ∀ reason, .refused reason ∉ events) :
    reply = .ok () ∧ v.evolving = true ∧ v.workers.length = wanted.toNat := by
  induction h generalizing ahead with
  | last _ hs hidle =>
    have heffect := of_step hs
    rcases heffect.of_starting ho ha with
      ⟨⟨_, hu⟩, -⟩ | ⟨reason, hr, -⟩ | ⟨-, -, hv, hfull, hanswer⟩
    · cases hidle.symm.trans hu
    · exact absurd (hr ▸ List.mem_singleton_self _) (hnone reason)
    · cases hanswer
      exact ⟨rfl, hv, hfull⟩
  | next hs hbusy _ ih =>
    have heffect := of_step hs
    rcases heffect.of_starting ho ha with ⟨⟨_, hu⟩, -⟩ | ⟨reason, hr, -⟩ | ⟨-, hu, -⟩
    · exact ih (ho.effect heffect) hu fun reason hr => hnone reason (List.mem_cons_of_mem _ hr)
    · exact absurd (hr ▸ List.mem_cons_self) (hnone reason)
    · exact absurd hu hbusy

def spawnings (events : List EngineEvent) : Nat := events.countP EngineEvent.isSpawned

/-- A start goes back on the first refusal, and that is what is replied. -/
theorem Call.refused {ahead : Bool} {before after : List EngineEvent} {reason : String}
    (h : Call e (before ++ .refused reason :: after) reply v) (ho : Orderly e)
    (ha : e.activity = .starting k wanted ahead) :
    reply = .error (.noWorker ((e.crew k).workers.length + spawnings before) reason) ∧ v.Idle := by
  induction before generalizing e ahead with
  | nil =>
    cases h with
    | last _ hs hidle =>
      rcases (of_step hs).of_starting ho ha with ⟨⟨_, hu⟩, -⟩ | ⟨_, -, hu⟩ | ⟨hr, -⟩
      · cases hidle.symm.trans hu
      · cases hidle.symm.trans hu
      · cases hr
    | next hs _ hrest =>
      have heffect := of_step hs
      rcases heffect.of_starting ho ha with ⟨-, hr, -⟩ | ⟨_, hr, hu⟩ | ⟨hr, -⟩
      · exact absurd rfl (hr reason)
      · cases hr
        exact (hrest.of_retreating (ho.effect heffect) hu).2
      · cases hr
  | cons event before ih =>
    rw [List.cons_append] at h
    generalize hevents : before ++ .refused reason :: after = events at h
    cases h with
    -- the refusal is still to come, so the call does not end here
    | last => cases before <;> cases hevents
    | next hs hbusy hrest =>
      subst hevents
      have heffect := of_step hs
      rcases heffect.of_starting ho ha with ⟨⟨_, hu⟩, -, hlength⟩ | ⟨_, -, hu⟩ | ⟨-, hu, -⟩
      · obtain ⟨hreply, hidle⟩ := ih hrest (ho.effect heffect) hu
        refine ⟨?_, hidle⟩
        rw [hreply, hlength, spawnings, spawnings, List.countP_cons]
        cases event.isSpawned <;> simp [add_assoc, add_comm]
      -- a start that goes back asks for no more workers
      · have hnone := (hrest.of_retreating (ho.effect heffect) hu).1
        exact absurd (List.mem_append_right _ List.mem_cons_self) (hnone reason)
      · exact absurd hu hbusy

end

/-! ## Every call can end -/

inductive Leaves (k : Nat) (e : Engine) : Prop where
  | retreating {failure : Failure} (ha : e.activity = .retreating k failure)
  | stopping (ha : e.activity = .stopping) (hk : e.held = k)

section
variable {e u : Engine} {k : Nat} {wanted : UInt64}

theorem Leaves.congr (h : Leaves k e) (ha : u.activity = e.activity) (hheld : u.held = e.held) :
    Leaves k u := by
  cases h with
  | retreating he => exact .retreating (ha.trans he)
  | stopping he hk => exact .stopping (ha.trans he) (hheld.trans hk)

theorem Leaves.busy (h : Leaves k e) : e.activity ≠ .none := by
  cases h with
  | retreating ha | stopping ha => exact fun hnone => nomatch ha.symm.trans hnone

theorem Leaves.cancelled (h : Leaves k e) (ho : Orderly e) : (e.crew k).cancelled = true := by
  have hfits := ho.fits
  cases h with
  | retreating ha =>
    rw [ha] at hfits
    exact hfits.2.2.2
  | stopping ha hk =>
    rw [ha] at hfits
    exact hk ▸ hfits.2.2

theorem Leaves.joined (h : Leaves k e) (hk : (e.crew k).alive = 0) :
    ∃ reply v, e.step .joined = some (v, some reply) ∧ v.activity = .none := by
  cases h with
  | retreating ha =>
    simp only [step, ha, if_pos hk]
    exact ⟨_, _, rfl, rfl⟩
  | stopping ha hheld =>
    subst hheld
    simp only [step, ha, if_pos hk]
    exact ⟨_, _, rfl, rfl⟩

/-- One more of those who have been told to exit does so. -/
theorem Leaves.exited (h : Leaves k e) (ho : Orderly e) (hk : (e.crew k).alive ≠ 0) :
    ∃ index u, e.step (.exited k index none) = some (u, none) ∧ Leaves k u ∧
      (u.crew k).alive + 1 = (e.crew k).alive := by
  obtain ⟨index, hindex⟩ := Crew.exists_alive hk
  have hexits : (e.crew k).exits index none = true :=
    Crew.exits_iff.mpr ⟨hindex, .inr (h.cancelled ho)⟩
  have hs : ∃ u, e.step (.exited k index none) = some (u, none) ∧
      u.activity = e.activity ∧ u.held = e.held := by
    simp only [step, if_pos hexits]
    exact ⟨_, rfl, rfl, rfl⟩
  obtain ⟨u, hs, hactivity, hheld⟩ := hs
  refine ⟨index, u, hs, h.congr hactivity hheld, ?_⟩
  cases of_step hs with
  | exited hlt _ =>
    show ((e.crews.modify k (·.exit index)).getD k .empty).alive + 1 = _
    rw [Crew.getD_modify_self hlt]
    exact Crew.alive_exit hindex

theorem Leaves.call (h : Leaves k e) (ho : Orderly e) :
    ∃ events reply v, Call e events reply v := by
  generalize hn : (e.crew k).alive = n
  induction n generalizing e with
  | zero =>
    obtain ⟨reply, v, hs, hidle⟩ := h.joined hn
    exact ⟨_, reply, v, .last h.busy hs hidle⟩
  | succ n ih =>
    obtain ⟨index, u, hs, hu, halive⟩ := h.exited ho (by omega)
    obtain ⟨events, reply, v, hcall⟩ := ih hu (ho.effect (of_step hs)) (by omega)
    exact ⟨_, reply, v, .next hs hu.busy hcall⟩

theorem step_registered (ha : e.activity = .starting k wanted false)
    (hroom : (e.crew k).workers.length < wanted.toNat) :
    ∃ u, e.step .registered = some (u, none) ∧ u.activity = .starting k wanted true ∧
      u.crews = e.crews := by
  simp only [step, ha, if_pos hroom]
  exact ⟨_, rfl, rfl, rfl⟩

theorem step_refused (ha : e.activity = .starting k wanted true) (reason : String) :
    ∃ u failure, e.step (.refused reason) = some (u, none) ∧
      u.activity = .retreating k failure := by
  simp only [step, ha]
  exact ⟨_, _, rfl, rfl⟩

theorem step_launched (ha : e.activity = .starting k wanted false)
    (hfull : wanted.toNat ≤ (e.crew k).workers.length) :
    ∃ v, e.step .launched = some (v, some (.ok ())) ∧ v.activity = .none := by
  simp only [step, ha, if_neg (Nat.not_lt.mpr hfull)]
  exact ⟨_, rfl, rfl⟩

/-- The next worker may be refused, and then the others exit. -/
theorem call_of_ahead (ho : Orderly e) (ha : e.activity = .starting k wanted true) :
    ∃ events reply v, Call e events reply v := by
  obtain ⟨u, failure, hs, hu⟩ := step_refused ha ""
  have hleaves : Leaves k u := .retreating hu
  obtain ⟨events, reply, v, hcall⟩ := hleaves.call (ho.effect (of_step hs))
  exact ⟨_, reply, v, .next hs hleaves.busy hcall⟩

theorem Orderly.call (ho : Orderly e) (hbusy : e.activity ≠ .none) :
    ∃ events reply v, Call e events reply v := by
  cases ha : e.activity with
  | none => exact absurd ha hbusy
  | retreating k failure => exact (Leaves.retreating ha).call ho
  | stopping => exact (Leaves.stopping ha rfl).call ho
  | starting k wanted ahead =>
    cases ahead with
    | true => exact call_of_ahead ho ha
    | false =>
      by_cases hroom : (e.crew k).workers.length < wanted.toNat
      · obtain ⟨u, hs, hu, -⟩ := step_registered ha hroom
        obtain ⟨events, reply, v, hcall⟩ := call_of_ahead (ho.effect (of_step hs)) hu
        exact ⟨_, reply, v, .next hs (fun h => nomatch hu.symm.trans h) hcall⟩
      · obtain ⟨v, hs, hv⟩ := step_launched ha (Nat.le_of_not_lt hroom)
        exact ⟨_, _, v, .last hbusy hs hv⟩

end

/-! ## Calls that are carried through -/

section
variable {e : Engine} {k : Nat}

structure Leads (e u : Engine) : Prop where
  orderly : Orderly u
  call : ∀ events reply v, Call u events reply v → ∃ events', Call e events' reply v

theorem Leads.refl (ho : Orderly e) : Leads e e := ⟨ho, fun events _ _ h => ⟨events, h⟩⟩

theorem Leads.trans {u v : Engine} (h₁ : Leads e u) (h₂ : Leads u v) : Leads e v where
  orderly := h₂.orderly
  call _ reply w hcall :=
    let ⟨events', hcall'⟩ := h₂.call _ reply w hcall
    h₁.call events' reply w hcall'

theorem Leads.step {u v : Engine} {event : EngineEvent} {answer : Option Reply} (h : Leads e u)
    (hs : u.step event = some (v, answer)) (hbusy : v.activity ≠ .none) : Leads e v where
  orderly := h.orderly.effect (of_step hs)
  call _ reply w hcall := h.call _ reply w (.next hs hbusy hcall)

theorem drive_of_step {u : Engine} {event : EngineEvent} {answer : Option Reply}
    (h : e.step event = some (u, answer)) : e.drive event = (u, answer.getD (.ok ())) := by
  rw [drive, h]

/-- It is the turn of one of those who have been told to exit. -/
theorem leads_turn (h : Leaves k e) (ho : Orderly e) (index : Nat) :
    let u := (e.drive (.exited k index none)).1
    Leads e u ∧ Leaves k u ∧ u.crew k = (e.crew k).exit index := by
  intro u
  by_cases hi : (e.crew k).workers[index]? = some true
  · have hexits : (e.crew k).exits index none = true :=
      Crew.exits_iff.mpr ⟨hi, .inr (h.cancelled ho)⟩
    have hs : e.step (.exited k index none) = some (u, none) ∧ u.activity = e.activity ∧
        u.held = e.held := by
      simp only [u, drive, step, if_pos hexits, and_self]
    obtain ⟨hs, hactivity, hheld⟩ := hs
    have hleaves := h.congr hactivity hheld
    refine ⟨(Leads.refl ho).step hs hleaves.busy, hleaves, ?_⟩
    generalize u = v at hs
    cases of_step hs with
    | exited hlt _ => exact Crew.getD_modify_self hlt _
  · have hexits : ¬ (e.crew k).exits index none = true := fun h => hi (Crew.exits_iff.mp h).1
    have hu : u = e := by simp only [u, drive, step, if_neg hexits]
    rw [hu, Crew.exit_of_ne hi]
    exact ⟨.refl ho, h, rfl⟩

theorem leads_foldl (h : Leaves k e) (ho : Orderly e) (indices : List Nat) :
    let u := indices.foldl (fun e index => (e.drive (.exited k index none)).1) e
    Leads e u ∧ Leaves k u ∧ u.crew k = indices.foldl Crew.exit (e.crew k) := by
  induction indices generalizing e with
  | nil => exact ⟨.refl ho, h, rfl⟩
  | cons index indices ih =>
    obtain ⟨hleads, hleaves, hcrew⟩ := leads_turn h ho index
    obtain ⟨hleads', hleaves', hcrew'⟩ := ih hleaves hleads.orderly
    exact ⟨hleads.trans hleads', hleaves', hcrew'.trans (by rw [hcrew, List.foldl_cons])⟩

theorem dismiss_call (h : Leaves k e) (ho : Orderly e) :
    ∃ events, Call e events (dismiss k e).2 (dismiss k e).1 := by
  obtain ⟨hleads, hleaves, hcrew⟩ :=
    leads_foldl h ho (List.range (e.crew k).workers.length)
  have hnobody : (List.foldl Crew.exit (e.crew k)
      (List.range (e.crew k).workers.length)).alive = 0 := by
    by_contra halive
    obtain ⟨i, hi⟩ := Crew.exists_alive halive
    obtain ⟨hi, hnot⟩ := Crew.of_foldl_exit hi
    obtain ⟨hlt, -⟩ := List.getElem?_eq_some_iff.mp hi
    exact hnot (List.mem_range.mpr hlt)
  obtain ⟨reply, v, hs, hidle⟩ := hleaves.joined (hcrew ▸ hnobody)
  have hdismiss : dismiss k e = (v, reply) := drive_of_step hs
  rw [hdismiss]
  exact hleads.call _ reply v (.last hleaves.busy hs hidle)

/-- However many are missing, the start is carried through. -/
theorem recruit_call (refusal : Nat → Option String) {wanted : UInt64} (missing : Nat)
    (ho : Orderly e) (ha : e.activity = .starting k wanted false)
    (hmissing : (e.crew k).workers.length + missing = wanted.toNat) :
    ∃ events, Call e events (recruit refusal k missing e).2 (recruit refusal k missing e).1 := by
  have hbusy : e.activity ≠ .none := fun h => nomatch ha.symm.trans h
  induction missing generalizing e with
  | zero =>
    obtain ⟨v, hs, hv⟩ := step_launched ha (by omega)
    have hrecruit : recruit refusal k 0 e = (v, .ok ()) := drive_of_step hs
    rw [hrecruit]
    exact ⟨_, .last hbusy hs hv⟩
  | succ missing ih =>
    obtain ⟨u, hs, hu, hcrews⟩ := step_registered ha (by omega)
    have hleads : Leads e u := (Leads.refl ho).step hs fun h => nomatch hu.symm.trans h
    have hcrew : u.crew k = e.crew k := by rw [crew, hcrews, crew]
    rw [recruit, drive_of_step hs, hcrew]
    cases hr : refusal (e.crew k).workers.length with
    | some reason =>
      obtain ⟨v, failure, hs, hv⟩ := step_refused hu reason
      have hleaves : Leaves k v := .retreating hv
      have hleads' := hleads.step hs hleaves.busy
      obtain ⟨events, hcall⟩ := dismiss_call hleaves hleads'.orderly
      simp only [drive_of_step hs]
      exact hleads'.call _ _ _ hcall
    | none =>
      have hs : ∃ v, u.step .spawned = some (v, none) ∧
          v.activity = .starting k wanted false ∧ v.crews = u.crews.modify k .spawn := by
        simp only [step, hu]
        exact ⟨_, rfl, rfl, rfl⟩
      obtain ⟨v, hs, hv, hspawn⟩ := hs
      have hleads' := hleads.step hs fun h => nomatch hv.symm.trans h
      have hfits := hleads.orderly.fits
      rw [hu] at hfits
      have hlength : (v.crew k).workers.length = (e.crew k).workers.length + 1 := by
        rw [crew, hspawn, Crew.getD_modify_self hfits.2.1, Crew.length_spawn, ← crew, hcrew]
      obtain ⟨events, hcall⟩ := ih hleads'.orderly hv (by omega) fun h => nomatch hv.symm.trans h
      simp only [drive_of_step hs]
      exact hleads'.call _ _ _ hcall

/-- The start of a crew is a call that is carried through. -/
theorem start_call (refusal : Nat → Option String) (wanted : Nat) (ho : Orderly e)
    (ha : e.activity = .none) (he : e.evolving = false) (hw : UInt64.ofNat wanted ≠ 0) :
    ∃ u events, e.step (.start (.ofNat wanted)) = some (u, none) ∧
      Call u events (e.start refusal wanted).2 (e.start refusal wanted).1 := by
  have hs : ∃ u, e.step (.start (.ofNat wanted)) = some (u, none) ∧
      u.activity = .starting e.crews.length (.ofNat wanted) false ∧
      u.crews = e.crews ++ [Crew.empty] := by
    simp only [step, if_neg hw, ha, he]
    exact ⟨_, rfl, rfl, rfl⟩
  obtain ⟨u, hs, hu, hcrews⟩ := hs
  have hnew : (u.crew e.crews.length).workers.length + (UInt64.ofNat wanted).toNat =
      (UInt64.ofNat wanted).toNat := by
    rw [crew, hcrews, Crew.getD_append, List.getD_eq_default _ _ le_rfl]
    exact zero_add _
  obtain ⟨events, hcall⟩ := recruit_call refusal _ (ho.effect (of_step hs)) hu hnew
  refine ⟨u, events, hs, ?_⟩
  simp only [start, hs]
  exact hcall

theorem stop_idle (ho : Orderly e) (ha : e.activity = .none) : e.stop.Idle := by
  cases he : e.evolving with
  | false =>
    have hstop : e.stop = e := by simp [stop, step, ha, he]
    rw [hstop]
    exact ho.idle ha he
  | true =>
    have hs : ∃ u, e.step .stop = some (u, none) ∧ u.activity = .stopping := by
      simp only [step, ha, he]
      exact ⟨_, rfl, rfl⟩
    obtain ⟨u, hs, hu⟩ := hs
    have hou := ho.effect (of_step hs)
    obtain ⟨events, hcall⟩ := dismiss_call (.stopping hu rfl) hou
    simp only [stop, hs]
    exact (hcall.of_stopping hou hu).2

end

/-! ## The count -/

section
variable {e u : Engine} {answer : Option Reply}

/-- Who exits has been counted. -/
theorem Orderly.active_exited {k index : Nat} {fault : Option Fault} (ho : Orderly e)
    (h : Effect e (.exited k index fault) u answer) : u.active + 1 = e.active := by
  cases h with
  | exited hk hexits =>
    have hpos : 0 < e.count.toNat := by
      have := alive_exited hk (Crew.exits_iff.mp hexits).1
      have : e.count.toNat = e.registered := ho.counted
      rw [registered] at this
      omega
    exact toNat_pred hpos

theorem Orderly.active_refused {reason : String} (ho : Orderly e)
    (h : Effect e (.refused reason) u answer) : u.active + 1 = e.active := by
  cases h with
  | refused ha =>
    have hcounted : e.count.toNat = e.registered := ho.counted
    rw [registered, ha] at hcounted
    exact toNat_pred (hcounted ▸ Nat.succ_pos e.alive)

end

/-- The count is that of the workers that are registered and have not exited, so it is not zero
when one is counted off. Between calls nobody is alive unless the engine evolves. A start with
no workers fails and a start during evolution is done already; both leave the engine as it is.
Any other start ends with its first refusal and nobody alive, or with a full crew. A stop ends
with nobody alive, whoever had died before, and every call can end. -/
theorem lifecycle (e : Engine) (h : Reachable e) :
    e.active = e.registered ∧
    (∀ k index fault u answer, e.step (.exited k index fault) = some (u, answer) →
      u.active + 1 = e.active) ∧
    (∀ reason u answer, e.step (.refused reason) = some (u, answer) → u.active + 1 = e.active) ∧
    (e.activity = .none → e.evolving = false → e.alive = 0) ∧
    e.step (.start 0) = some (e, some (.error .noWorkers)) ∧
    (∀ wanted, wanted ≠ 0 → e.activity = .none → e.evolving = true →
      e.step (.start wanted) = some (e, some (.ok ()))) ∧
    (∀ wanted u, e.step (.start wanted) = some (u, none) →
      ∀ events reply v, Call u events reply v →
        (∀ before reason after, events = before ++ .refused reason :: after →
          reply = .error (.noWorker (spawnings before) reason) ∧ v.Idle) ∧
        ((∀ reason, .refused reason ∉ events) →
          reply = .ok () ∧ v.evolving = true ∧ v.workers.length = wanted.toNat)) ∧
    (∀ u reply, e.step .stop = some (u, some reply) → reply = .ok () ∧ u.Idle) ∧
    (∀ u, e.step .stop = some (u, none) →
      ∀ events reply v, Call u events reply v → reply = .ok () ∧ v.Idle) ∧
    (e.activity ≠ .none → ∃ events reply v, Call e events reply v) := by
  have ho := h.orderly
  refine ⟨ho.counted, fun _ _ _ _ _ hs => ho.active_exited (of_step hs),
    fun _ _ _ hs => ho.active_refused (of_step hs), fun ha he => (ho.idle ha he).alive, rfl,
    fun wanted hw ha he => ?_, fun wanted u hs events reply v hcall => ?_, fun u reply hs => ?_,
    fun u hs events reply v hcall => ?_, ho.call⟩
  · simp only [step, if_neg hw, ha, if_pos he]
  · have heffect := of_step hs
    have hu := ho.effect heffect
    cases heffect with
    | start _ _ _ =>
      -- a new crew has no workers yet
      have hnew : ((e.crews ++ [Crew.empty]).getD e.crews.length .empty).workers.length = 0 := by
        rw [Crew.getD_append, List.getD_eq_default _ _ le_rfl]
        rfl
      refine ⟨fun before reason after hevents => ?_, fun hnone => hcall.launched hu rfl hnone⟩
      subst hevents
      obtain ⟨hreply, hidle⟩ := hcall.refused hu rfl
      rw [hreply, crew, hnew, zero_add]
      exact ⟨rfl, hidle⟩
  · cases of_step hs with
    | idle ha he => exact ⟨rfl, ho.idle ha he⟩
  · have heffect := of_step hs
    have hu := ho.effect heffect
    cases heffect with
    | stop _ _ => exact hcall.of_stopping hu rfl

/-- Of two workers one has died before evolution is stopped. -/
theorem lifecycle_survivor :
    let crews : List Crew := [.empty, { workers := [false, true] }]
    let e : Engine := { evolving := true, crews := crews, held := 1, count := 1 }
    Reachable e ∧ e.active = e.registered ∧
      ∃ u, e.step .stop = some (u, none) ∧
        ∀ events reply v, Call u events reply v → reply = .ok () ∧ v.Idle := by
  intro crews e
  have h0 : Reachable {} := .initial
  have h1 := h0.step (.start 2) rfl
  have h2 := (h1.step .registered rfl).step .spawned rfl
  have h3 := (h2.step .registered rfl).step .spawned rfl
  have h4 := h3.step .launched rfl
  have he : Reachable e := h4.step (.exited 1 0 (some .weightTotal)) rfl
  obtain ⟨hcount, -, -, -, -, -, -, -, hstop, -⟩ := lifecycle e he
  exact ⟨he, hcount, _, rfl, hstop _ rfl⟩

end Engine

end Biotope
