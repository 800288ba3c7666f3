import Biotope.CommandLine
import Biotope.Proofs.SavedSettings
import Biotope.Proofs.Storage

/-!
# Runs

A run that halts leaves the disk as it was, at whatever stage it halts. One that succeeds writes
the evolved pool, if that is wanted, and nothing else. If a stored pool is there and has to be
loaded, it is what evolves or there is no evolution.
-/

namespace Biotope.CommandLine

open Act

/-! ## Stages that only look -/

def afterwards {α} : EStateM.Result Halt Disk α → Disk
  | .ok _ disk | .error _ disk => disk

def Harmless {α : Type} (a : Stage α) : Prop := ∀ disk, afterwards (a disk) = disk

section
variable {α β : Type}

theorem harmless_pure (x : α) : Harmless (pure x : Stage α) := fun _ => rfl

theorem harmless_throw (h : Halt) : Harmless (throw h : Stage α) := fun _ => rfl

theorem harmless_get : Harmless (get : Stage Disk) := fun _ => rfl

theorem stage_bind_ok {a : Stage α} {f : α → Stage β} {disk disk' : Disk} {x : α}
    (h : a disk = .ok x disk') : (a >>= f) disk = f x disk' := by
  show EStateM.bind a f disk = _
  rw [EStateM.bind, h]

theorem stage_bind_error {a : Stage α} {f : α → Stage β} {disk disk' : Disk} {e : Halt}
    (h : a disk = .error e disk') : (a >>= f) disk = .error e disk' := by
  show EStateM.bind a f disk = _
  rw [EStateM.bind, h]

theorem of_stage_bind_ok {a : Stage α} {f : α → Stage β} {disk disk' : Disk} {y : β}
    (h : (a >>= f) disk = .ok y disk') : ∃ x d, a disk = .ok x d ∧ f x d = .ok y disk' := by
  change EStateM.bind a f disk = _ at h
  unfold EStateM.bind at h
  split at h
  · exact ⟨_, _, ‹_›, h⟩
  · cases h

theorem harmless_bind {a : Stage α} {f : α → Stage β} (ha : Harmless a)
    (hf : ∀ x, Harmless (f x)) : Harmless (a >>= f) := by
  intro disk
  have hdisk := ha disk
  show afterwards (EStateM.bind a f disk) = disk
  unfold EStateM.bind
  cases h : a disk with
  | ok x d =>
    rw [h] at hdisk
    exact (hf x d).trans hdisk
  | error e d =>
    rw [h] at hdisk
    exact hdisk

theorem harmless_demand (x : Except Complaint α) : Harmless (demand x) := by
  cases x with
  | ok x => exact harmless_pure x
  | error c => exact harmless_throw _

theorem of_demand_ok {x : Except Complaint α} {y : α} {disk disk' : Disk}
    (h : demand x disk = .ok y disk') : x = .ok y ∧ disk' = disk := by
  cases x with
  | ok x =>
    cases h
    exact ⟨rfl, rfl⟩
  | error c => cases h

end

/-! ## Before evolution -/

theorem harmless_prepare (l : Launch) (refusal : Refusal) (stream : Stream) :
    Harmless (prepare l refusal stream) := by
  refine harmless_bind (harmless_demand _) fun s => harmless_bind harmless_get fun disk => ?_
  cases furnish disk s { stream } with
  | error fault w => exact harmless_throw _
  | ok outcome w =>
    cases outcome with
    | error c => exact harmless_throw _
    | ok u => exact harmless_bind (harmless_demand _) fun e => harmless_pure _

/-- What has gone before, if evolution begins. -/
theorem of_prepare_ok {l : Launch} {refusal : Refusal} {stream : Stream} {disk disk' : Disk}
    {r : Running} (h : prepare l refusal stream disk = .ok r disk') :
    loadSettings l = .ok r.settings ∧
      furnish disk r.settings { stream } = .ok (.ok ()) r.world ∧ disk' = disk := by
  unfold prepare at h
  obtain ⟨s, d, hs, hrest⟩ := of_stage_bind_ok h
  obtain ⟨hsettings, rfl⟩ := of_demand_ok hs
  obtain ⟨_, _, hget, hrest⟩ := of_stage_bind_ok hrest
  cases hget
  cases hw : furnish d s { stream } with
  | error fault w =>
    rw [hw] at hrest
    cases hrest
  | ok outcome w =>
    rw [hw] at hrest
    cases outcome with
    | error c => cases hrest
    | ok u =>
      obtain ⟨e, d', he, hrest⟩ := of_stage_bind_ok hrest
      obtain ⟨-, hd⟩ := of_demand_ok he
      cases hrest
      exact ⟨hsettings, hw, hd⟩

/-- A pool is loaded as it stands in the file. -/
theorem of_loadPool_ok {disk : Disk} {path : String} {w v : World} {u : Unit}
    (h : loadPool disk path w = .ok (.ok u) v) :
    ∃ content, disk.look path = .text content ∧ (Pool.load content).1 = .ok v.pool := by
  unfold loadPool at h
  cases hlook : disk.look path with
  | nothing =>
    rw [hlook] at h
    cases h
  | closed failure =>
    rw [hlook] at h
    cases h
  | text content =>
    refine ⟨content, rfl, ?_⟩
    simp only [hlook] at h
    generalize Pool.load content = loaded at h ⊢
    obtain ⟨result, notices⟩ := loaded
    obtain ⟨_, t, -, h⟩ := of_bind_ok h
    cases result with
    | error f => cases h
    | ok p =>
      cases h
      rfl

theorem of_furnish_stored {disk : Disk} {s : Settings} {path : String} {w v : World} {u : Unit}
    (hpath : storedPath? disk s.storage = some path) (h : furnish disk s w = .ok (.ok u) v) :
    ∃ content, disk.look path = .text content ∧ (Pool.load content).1 = .ok v.pool := by
  unfold furnish at h
  rw [hpath] at h
  obtain ⟨result, t, hload, h⟩ := of_bind_ok h
  cases result with
  | error f => cases h
  | ok u =>
    cases h
    exact of_loadPool_ok hload

theorem storedPath?_eq {disk : Disk} {s : StorageSettings} {path : String}
    (hload : s.loadOnStart = true) (hpath : s.snapshotPath = some path)
    (hthere : (disk.look path).isThere = true) : storedPath? disk s = some path := by
  rw [storedPath?, if_pos hload, hpath, Option.filter_some, if_pos hthere]

/-! ## After evolution -/

section
variable {disk : Disk}

theorem look_put (disk : Disk) (path content p : String) :
    (disk.put path content).look p = if p = path then .text content else disk.look p := rfl

theorem storeAt_cases (path content : String) (disk : Disk) :
    (∃ halt, storeAt path content disk = .error halt disk) ∨
      ∃ disk', storeAt path content disk = .ok () disk' ∧
        ∀ p, disk'.look p = if p = path then .text content else disk.look p := by
  cases hr : disk.refusal path with
  | some reason =>
    refine .inl ⟨notStored path reason, ?_⟩
    unfold storeAt
    refine (stage_bind_ok rfl).trans ?_
    rw [hr]
    rfl
  | none =>
    refine .inr ⟨(disk.put path "").put path content, ?_, fun p => ?_⟩
    · unfold storeAt
      refine (stage_bind_ok rfl).trans ?_
      rw [hr]
      rfl
    · rw [look_put, look_put]
      split <;> rfl

/-- Nothing is stored, or the pool is and the disk is else as it was. -/
theorem finish_cases (now : Timestamp) (s : StorageSettings) (p : Pool) (disk : Disk) :
    (∃ halt, finish now s p disk = .error halt disk) ∨ finish now s p disk = .ok none disk ∨
      ∃ path disk', finish now s p disk = .ok (some (path, p.store now)) disk' ∧
        s.storeOnStop = true ∧ s.snapshotPath = some path ∧
        ∀ q, disk'.look q = if q = path then .text (p.store now) else disk.look q := by
  have hnone (h : finish now s p = pure none) : finish now s p disk = .ok none disk := by
    rw [h]
    rfl
  cases hstore : s.storeOnStop with
  | false => exact .inr (.inl (hnone (by rw [finish, hstore])))
  | true =>
    cases hpath : s.snapshotPath with
    | none => exact .inr (.inl (hnone (by rw [finish, hstore, hpath])))
    | some path =>
      have hfinish : finish now s p = storeAt path (p.store now) >>= fun _ =>
          pure (some (path, p.store now)) := by
        rw [finish, hstore, hpath]
      rw [hfinish]
      rcases storeAt_cases path (p.store now) disk with ⟨halt, h⟩ | ⟨disk', h, hlook⟩
      · exact .inl ⟨halt, stage_bind_error h⟩
      · exact .inr (.inr ⟨path, disk', (stage_bind_ok h).trans rfl, rfl, rfl, hlook⟩)

end

/-! ## Whole runs -/

theorem code_halted (halt : Halt) : (Ending.halted halt).code ≠ 0 := by
  cases halt with
  | complaint c => exact (by decide : (1 : UInt32) ≠ 0)
  | brokenOff fault => exact (by decide : (101 : UInt32) ≠ 0)

/-- A run halts and leaves the disk as it was, or evolution has ended and what is to be stored
is stored. -/
theorem stages_cases (l : Launch) (c : Circumstances) (disk : Disk) :
    (∃ halt, stages l c disk = .error halt disk) ∨
      ∃ r w written disk', prepare l c.refusal c.stream disk = .ok r disk ∧ c.course r = .ok w ∧
        finish c.now r.settings.storage w.pool disk = .ok written disk' ∧
        stages l c disk = .ok written disk' := by
  have hharmless := harmless_prepare l c.refusal c.stream disk
  unfold stages
  cases hprepare : prepare l c.refusal c.stream disk with
  | error halt d =>
    rw [hprepare] at hharmless
    obtain rfl : d = disk := hharmless
    exact .inl ⟨halt, stage_bind_error hprepare⟩
  | ok r d =>
    rw [hprepare] at hharmless
    obtain rfl : d = disk := hharmless
    rw [stage_bind_ok hprepare]
    cases hcourse : c.course r with
    | error fault => exact .inl ⟨.brokenOff fault, rfl⟩
    | ok w =>
      rcases finish_cases c.now r.settings.storage w.pool d with
        ⟨halt, h⟩ | h | ⟨path, disk', h, -⟩
      · exact .inl ⟨halt, h⟩
      · exact .inr ⟨r, w, _, _, rfl, hcourse, h, h⟩
      · exact .inr ⟨r, w, _, _, rfl, hcourse, h, h⟩

/-- A run that fails leaves the disk as it was. A file is only changed by a run that succeeds and
has to store its pool there, and then has what evolved in it. Where there is a file that has to
be loaded the run fails, or goes on with just the pool that is in the file. -/
theorem perform_keeps (l : Launch) (c : Circumstances) (disk : Disk) :
    let ending := (perform l c disk).1
    let disk' := (perform l c disk).2
    (ending.code ≠ 0 → disk' = disk) ∧
    (∀ path, disk'.look path ≠ disk.look path → ∃ r w,
      prepare l c.refusal c.stream disk = .ok r disk ∧ c.course r = .ok w ∧
      loadSettings l = .ok r.settings ∧ r.settings.storage.storeOnStop = true ∧
      r.settings.storage.snapshotPath = some path ∧
      ending = .success (some (path, w.pool.store c.now)) ∧
      disk'.look path = .text (w.pool.store c.now)) ∧
    (∀ s path, loadSettings l = .ok s → s.storage.loadOnStart = true →
      s.storage.snapshotPath = some path → (disk.look path).isThere = true →
      ending.code ≠ 0 ∨ ∃ content a r w, disk.look path = .text content ∧
        Archive.parse content = .ok a ∧ prepare l c.refusal c.stream disk = .ok r disk ∧
        a.census.toPool = .ok r.world.pool ∧ r.world.pool.census = a.census ∧
        c.course r = .ok w) := by
  rcases stages_cases l c disk with ⟨halt, h⟩ | ⟨r, w, written, disk', hr, hw, hfinish, h⟩
  · have hperform : perform l c disk = (.halted halt, disk) := by rw [perform, h]
    rw [hperform]
    exact ⟨fun _ => rfl, fun path hne => absurd rfl hne, fun _ _ _ _ _ _ => .inl (code_halted halt)⟩
  · have hperform : perform l c disk = (.success written, disk') := by rw [perform, h]
    obtain ⟨hsettings, hfurnish, -⟩ := of_prepare_ok hr
    rw [hperform]
    refine ⟨fun hcode => absurd rfl hcode, fun path hne => ?_, fun s path hs hload hpath hthere =>
      .inr ?_⟩
    · rcases finish_cases c.now r.settings.storage w.pool disk with
        ⟨halt, h'⟩ | h' | ⟨path', disk'', h', hstore, hpath, hlook⟩
      · cases hfinish.symm.trans h'
      · cases hfinish.symm.trans h'
        exact absurd rfl hne
      · cases hfinish.symm.trans h'
        -- a run writes one file, and no other path looks different
        have heq : path = path' := by
          by_contra hother
          exact hne (by rw [hlook, if_neg hother])
        subst heq
        exact ⟨r, w, hr, hw, hsettings, hstore, hpath, rfl, by rw [hlook, if_pos rfl]⟩
    · cases hs.symm.trans hsettings
      obtain ⟨content, hcontent, hpool⟩ :=
        of_furnish_stored (storedPath?_eq hload hpath hthere) hfurnish
      obtain ⟨a, ha, -, htoPool⟩ := Pool.of_load_ok hpool
      obtain ⟨-, hexact⟩ := Census.toPool_eq_ok_iff.mp htoPool
      exact ⟨content, a, r, w, hcontent, ha, hr, htoPool, hexact, hw⟩

/-- A run fails over a file that breaks off, and the file stays. -/
theorem perform_keeps_broken :
    let s : Settings :=
      { storage := { snapshotPath := some "pool.json", loadOnStart := true, storeOnStop := true } }
    let l : Launch := ⟨some ⟨"a.toml", "a.toml", "a.toml", Toml.documentText s.sections⟩, []⟩
    let disk : Disk := ⟨fun p => if p = "pool.json" then .text "\x7b" else .nothing, fun _ => none⟩
    let c : Circumstances :=
      ⟨default, systemRefusal, fun r => .ok r.world, ⟨1970, 1, 1, 0, 0, 0, 0⟩⟩
    loadSettings l = .ok s ∧ (perform l c disk).1.code ≠ 0 ∧ (perform l c disk).2 = disk := by
  intro s l disk c
  have hvalid : s.check? = none := Option.isNone_iff_eq_none.mp (by decide +kernel)
  have hload : Settings.load l.config l.environment = .ok s :=
    Settings.load_saved hvalid (by decide) (by simp [l]) rfl (by decide +kernel)
  have hsettings : loadSettings l = .ok s := by
    rw [loadSettings, hload, Except.mapError]
  obtain ⟨hkept, -, hstored⟩ := perform_keeps l c disk
  have hcode : (perform l c disk).1.code ≠ 0 := by
    rcases hstored s "pool.json" hsettings rfl rfl rfl with h | ⟨content, a, _, _, hcontent, ha, _⟩
    · exact h
    · cases hcontent
      have : (Archive.parse "\x7b").toOption.isNone := by decide +kernel
      rw [ha] at this
      cases this
  exact ⟨hsettings, hcode, hkept hcode⟩

end Biotope.CommandLine
