import Biotope.Proofs.Layers
import Biotope.Proofs.Weights
import Biotope.Settings.Keeper

/-!
# Saving settings and loading them again

Settings that are valid go into a file unless a number is too large for the format, and the
file, loaded by itself, gives exactly these settings: every float to the last bit, every text,
and the defaults for what the file leaves out.
-/

namespace Biotope

/-! ## What is written -/

def tooLarge (n : Nat) : Bool := decide (2 ^ 63 ≤ n)

def PoolSettings.naturals (s : PoolSettings) : List Nat :=
  [s.initialCreatures.toNat, s.maximumDepth.toNat]

def EvolutionSettings.naturals (s : EvolutionSettings) : List Nat :=
  [s.threadCount.toNat, s.workerStackSize.toNat, s.runSeconds.toNat, s.reportIntervalMillis.toNat]

def Settings.naturals (s : Settings) : List Nat := s.pool.naturals ++ s.evolution.naturals

def PoolSettings.toSection (s : PoolSettings) : Toml.Section :=
  ⟨"pool", [("initial_creatures", .integer s.initialCreatures.toNat),
    ("relative_complexity", .float s.relativeComplexity),
    ("maximum_depth", .integer s.maximumDepth.toNat),
    ("initial_temperature", .float s.initialTemperature),
    ("get_policy", .string s.getPolicy.name)] ++
      s.opcodeWeights.toList.map fun ws => ("opcode_weights", .array (ws.map .float))⟩

def EvolutionSettings.toSection (s : EvolutionSettings) : Toml.Section :=
  ⟨"evolution", [("thread_count", .integer s.threadCount.toNat),
    ("worker_stack_size", .integer s.workerStackSize.toNat),
    ("run_seconds", .integer s.runSeconds.toNat),
    ("report_interval_millis", .integer s.reportIntervalMillis.toNat)]⟩

namespace Settings

def sections (s : Settings) : List Toml.Section :=
  [s.pool.toSection, s.evolution.toSection, storageSection s.storage]

theorem fits_natCast (n : Nat) : Toml.fits n = !tooLarge n := by
  have hmin : Int64.minValue.toInt = -2 ^ 63 := by decide
  have hmax : Int64.maxValue.toInt = 2 ^ 63 - 1 := by decide
  simp only [Toml.fits, hmin, hmax, tooLarge]
  grind

theorem natural_eq (n : UInt64) : natural n =
    if tooLarge n.toNat then .error (.unwritable n.toNat) else .ok (.integer n.toNat) := by
  simp only [natural, fits_natCast]
  cases tooLarge n.toNat <;> rfl

theorem poolSection_eq (s : PoolSettings) : poolSection s = match s.naturals.find? tooLarge with
    | some n => .error (.unwritable n)
    | none => .ok s.toSection := by
  simp only [poolSection, natural_eq, PoolSettings.naturals, List.find?_cons]
  cases tooLarge s.initialCreatures.toNat
  · cases tooLarge s.maximumDepth.toNat
    · cases h : s.opcodeWeights <;>
        simp [PoolSettings.toSection, h, bind, Except.bind, pure, Except.pure]
    · rfl
  · rfl

theorem evolutionSection_eq (s : EvolutionSettings) :
    evolutionSection s = match s.naturals.find? tooLarge with
    | some n => .error (.unwritable n)
    | none => .ok s.toSection := by
  simp only [evolutionSection, natural_eq, EvolutionSettings.naturals, List.find?_cons]
  cases tooLarge s.threadCount.toNat
  · cases tooLarge s.workerStackSize.toNat
    · cases tooLarge s.runSeconds.toNat
      · cases tooLarge s.reportIntervalMillis.toNat <;> rfl
      · rfl
    · rfl
  · rfl

/-- The first number that is too large is the one that is reported. -/
theorem save_eq (s : Settings) : s.save = match s.naturals.find? tooLarge with
    | some n => .error (.unwritable n)
    | none => .ok (Toml.documentText s.sections) := by
  rw [save, poolSection_eq, evolutionSection_eq, naturals, List.find?_append]
  cases s.pool.naturals.find? tooLarge with
  | some n => rfl
  | none => cases s.evolution.naturals.find? tooLarge <;> rfl

end Settings

/-! ## What is read -/

namespace Layer

section
variable {α : Type} (origin : Option String)

theorem atKey_ok (part : String) (x : α) : atKey part (.ok x) = .ok x := rfl

theorem atIndex_ok (i : Nat) (x : α) : atIndex i (.ok x) = .ok x := rfl

theorem toNatural_int (n : UInt64) : toNatural (.scalar (.int n.toNat) origin) = .ok n := by
  simp [toNatural]

theorem toPolicy_name (p : GetPolicy) : toPolicy (.scalar (.text p.name) origin) = .ok p := by
  cases p <;> rfl

theorem toFields_found {field : String → Layer → α → Conversion α} {es : List (String × Layer)}
    {name : String} {names : List String} {l : Layer} {acc acc' : α} (h : lookup? name es = some l)
    (hfield : field name l acc = .ok acc') :
    toFields field es (name :: names) acc = toFields field es names acc' := by
  simp [toFields, h, hfield, atKey_ok, bind, Except.bind]

theorem toItems_floats (source : String) (i : Nat) (ws : List Float) :
    toItems toFloat i (allOfToml source (ws.map .float)) = .ok ws := by
  induction ws generalizing i with
  | nil => simp [allOfToml, toItems]
  | cons w ws ih =>
    simp [allOfToml, ofToml, toItems, toFloat, atIndex_ok, ih, bind, Except.bind, pure, Except.pure]

end

end Layer

namespace Settings

open Layer

variable (source : String)

theorem toRecord_pool (s : PoolSettings) :
    toRecord PoolSettings.form PoolSettings.convert {}
      (.table (entriesOfToml source s.toSection.entries) none) = .ok s := by
  obtain ⟨creatures, complexity, depth, temperature, policy, weights⟩ := s
  cases weights <;>
    simp [toRecord, toFields, lookup?, PoolSettings.form, PoolSettings.convert,
      PoolSettings.toSection, entriesOfToml, entryOfToml, ofToml, atKey_ok, toNatural_int, toFloat,
      toPolicy_name, toOption, isBlank, toList, toItems_floats, bind, Except.bind, pure, Except.pure]

theorem toRecord_evolution (s : EvolutionSettings) :
    toRecord EvolutionSettings.form EvolutionSettings.convert {}
      (.table (entriesOfToml source s.toSection.entries) none) = .ok s := by
  simp [toRecord, toFields, lookup?, EvolutionSettings.form, EvolutionSettings.convert,
    EvolutionSettings.toSection, entriesOfToml, entryOfToml, ofToml, atKey_ok, toNatural_int, bind,
    Except.bind, pure, Except.pure]

theorem toRecord_storage (s : StorageSettings) :
    toRecord StorageSettings.form StorageSettings.convert {}
      (.table (entriesOfToml source (storageSection s).entries) none) = .ok s := by
  obtain ⟨path, loads, stores⟩ := s
  cases path <;>
    simp [toRecord, toFields, lookup?, StorageSettings.form, StorageSettings.convert,
      storageSection, entriesOfToml, entryOfToml, ofToml, atKey_ok, Layer.toBool, toText, toOption,
      isBlank, bind, Except.bind, pure, Except.pure]

theorem ofLayer_sections (s : Settings) :
    ofLayer (.table (s.sections.map (ofSection source)) none) = .ok s := by
  have hpool (acc : Settings) : convert "pool" (ofSection source s.pool.toSection).2 acc =
      .ok { acc with pool := s.pool } := by
    simp [convert, ofSection, toRecord_pool, bind, Except.bind, pure, Except.pure]
  have hevolution (acc : Settings) :
      convert "evolution" (ofSection source s.evolution.toSection).2 acc =
        .ok { acc with evolution := s.evolution } := by
    simp [convert, ofSection, toRecord_evolution, bind, Except.bind, pure, Except.pure]
  have hstorage (acc : Settings) :
      convert "persistence" (ofSection source (storageSection s.storage)).2 acc =
        .ok { acc with storage := s.storage } := by
    simp [convert, ofSection, toRecord_storage, bind, Except.bind, pure, Except.pure]
  show toFields convert (s.sections.map (ofSection source))
    ["pool", "evolution", "persistence"] {} = .ok s
  rw [toFields_found rfl (hpool _), toFields_found rfl (hevolution _),
    toFields_found rfl (hstorage _)]
  rfl

/-! ## Settings that are valid -/

theorem check?_parts {s : Settings} (h : s.check? = none) : s.pool.check? = none := by
  simp only [check?, Option.or_eq_none_iff] at h
  exact h.1.1

theorem isFinite_of_ofFloat? {x : Float} {p : Probability} (h : Probability.ofFloat? x = some p) :
    Decimal.isFinite x = true := by
  have := p.inUnit
  rw [Pool.value_of_ofFloat? h] at this
  exact Decimal.isFinite_of_inUnit this

theorem readable_natural {ns : List Nat} (hn : ∀ n ∈ ns, tooLarge n = false) {n : UInt64}
    (h : n.toNat ∈ ns) : Toml.Readable Toml.depthLimit (.integer n.toNat) :=
  .integer (by rw [fits_natCast, hn _ h]; rfl)

/-- A section is plain if its names are those of a form and its values can be read. -/
theorem plain_of_form (form : Json.Form) {t : Toml.Section}
    (hnames : ∀ name ∈ t.name :: form.fields, Toml.Bare name)
    (hkeys : ∀ e ∈ t.entries, e.1 ∈ form.fields) (hdistinct : (t.entries.map (·.1)).Nodup)
    (hvalues : ∀ e ∈ t.entries, Toml.Readable Toml.depthLimit e.2) : t.Plain :=
  ⟨hnames _ List.mem_cons_self, fun e he => hnames _ (List.mem_cons_of_mem _ (hkeys e he)), hdistinct,
    hvalues⟩

theorem plain_pool {s : PoolSettings} (h : s.check? = none)
    (hn : ∀ n ∈ s.naturals, tooLarge n = false) : s.toSection.Plain := by
  obtain ⟨⟨c, hc⟩, ⟨t, ht⟩, hws⟩ := Pool.of_check h
  have hcreatures := readable_natural hn (n := s.initialCreatures) (by simp [PoolSettings.naturals])
  have hdepth := readable_natural hn (n := s.maximumDepth) (by simp [PoolSettings.naturals])
  have hcomplexity : Toml.Readable Toml.depthLimit (.float s.relativeComplexity) :=
    .float (isFinite_of_ofFloat? hc)
  have htemperature : Toml.Readable Toml.depthLimit (.float s.initialTemperature) :=
    .float (isFinite_of_ofFloat? ht)
  have hweights : ∀ ws ∈ s.opcodeWeights, Toml.Readable Toml.depthLimit (.array (ws.map .float)) := by
    intro ws h
    refine .array fun v hv => ?_
    obtain ⟨w, hw, rfl⟩ := List.mem_map.mp hv
    exact .float ((hws ws h).finite w hw)
  refine plain_of_form PoolSettings.form ?_ ?_ ?_ ?_
  · simp [PoolSettings.toSection, PoolSettings.form, Toml.Bare, Toml.isBare]
  · cases hw : s.opcodeWeights <;> simp [PoolSettings.toSection, PoolSettings.form, hw]
  · cases hw : s.opcodeWeights <;> simp [PoolSettings.toSection, hw]
  · cases hw : s.opcodeWeights <;>
      simp_all [PoolSettings.toSection, Toml.Readable.string]

theorem plain_evolution {s : EvolutionSettings} (hn : ∀ n ∈ s.naturals, tooLarge n = false) :
    s.toSection.Plain := by
  refine plain_of_form EvolutionSettings.form ?_ ?_ ?_ ?_
  · simp [EvolutionSettings.toSection, EvolutionSettings.form, Toml.Bare, Toml.isBare]
  · simp [EvolutionSettings.toSection, EvolutionSettings.form]
  · simp [EvolutionSettings.toSection]
  · simp only [EvolutionSettings.toSection, List.forall_mem_cons]
    refine ⟨readable_natural hn ?_, readable_natural hn ?_, readable_natural hn ?_,
      readable_natural hn ?_, by simp⟩ <;> simp [EvolutionSettings.naturals]

theorem plain_storage (s : StorageSettings) : (storageSection s).Plain := by
  refine plain_of_form StorageSettings.form ?_ ?_ ?_ ?_
  · simp [storageSection, StorageSettings.form, Toml.Bare, Toml.isBare]
  · cases h : s.snapshotPath <;> simp [storageSection, StorageSettings.form, h]
  · cases h : s.snapshotPath <;> simp [storageSection, h]
  · cases h : s.snapshotPath <;>
      simp [storageSection, h, Toml.Readable.string, Toml.Readable.bool]

theorem plain_sections {s : Settings} (h : s.check? = none)
    (hn : ∀ n ∈ s.naturals, tooLarge n = false) : ∀ t ∈ s.sections, t.Plain := by
  have hpool := plain_pool (check?_parts h) fun n hmem => hn n (List.mem_append_left _ hmem)
  have hevolution := plain_evolution fun n hmem => hn n (List.mem_append_right _ hmem)
  simp [sections, hpool, hevolution, plain_storage]

/-! ## The way back -/

theorem ofEnvironment_nil {environment : List (String × String)}
    (h : ∀ e ∈ environment, Layer.key? e.1 = none) : Layer.ofEnvironment environment = [] := by
  simp only [ofEnvironment, List.filterMap_eq_nil_iff, Option.map_eq_none_iff]
  exact h

theorem load_saved {s : Settings} {environment : List (String × String)} {file : SettingsFile}
    (h : s.check? = none) (hn : ∀ n ∈ s.naturals, tooLarge n = false)
    (henvironment : ∀ e ∈ environment, Layer.key? e.1 = none)
    (hcontent : file.content = some (Toml.documentText s.sections))
    (hformat : extension file.location = "toml") : load (some file) environment = .ok s := by
  have hplain := plain_sections h hn
  have hnames : (s.sections.map (·.name)).Nodup := by
    show ["pool", "evolution", "persistence"].Nodup
    decide
  have hfile := ofFile_sections hcontent hformat hplain hnames
  have hlay : putAll (entriesOfToml file.name (s.sections.map fun t => (t.name, .table t.entries)))
      empty = .table (s.sections.map (ofSection file.name)) none := putAll_sections _ hplain hnames
  have hlayer : layer (some file) environment =
      .ok (.table (s.sections.map (ofSection file.name)) none) := by
    simp only [layer, hfile, ofEnvironment_nil henvironment]
    exact congrArg Except.ok hlay
  have hsettings := ofLayer_sections file.name s
  have hchecked : s.checked = .ok s := by simp [checked, h]
  simp only [load, hlayer, bind, Except.bind, hsettings, Except.mapError]
  exact hchecked

end Settings

namespace Keeper

/-- Valid settings are either refused because of a number, before there is any text, or saved
in a text that gives any keeper that loads it, from whatever file, the same settings. -/
theorem save_then_load (k j : Keeper) (environment : List (String × String))
    (hvalid : k.settings.check? = none)
    (henvironment : ∀ e ∈ environment, Layer.key? e.1 = none) :
    ((∃ n ∈ k.settings.naturals, 2 ^ 63 ≤ n) → ∃ n ∈ k.settings.naturals, 2 ^ 63 ≤ n ∧
      k.perform .save = (k, .refused (.unwritable n))) ∧
    ((∀ n ∈ k.settings.naturals, n < 2 ^ 63) → ∃ text, k.perform .save = (k, .saved text) ∧
      ∀ file : SettingsFile, file.content = some text → Layer.extension file.location = "toml" →
        j.perform (.load (some file) environment) = (k, .installed)) := by
  have hsave := k.settings.save_eq
  constructor
  · rintro ⟨m, hm, hlarge⟩
    cases hfind : k.settings.naturals.find? tooLarge with
    | none =>
      have := List.find?_eq_none.mp hfind m hm
      exact absurd (decide_eq_true hlarge) this
    -- the number that is reported is the first that is too large, not any
    | some n =>
      rw [hfind] at hsave
      have hn : tooLarge n = true := List.find?_some hfind
      exact ⟨n, List.mem_of_find?_eq_some hfind, of_decide_eq_true hn, by simp only [perform, hsave]⟩
  · intro hsmall
    have hn : ∀ n ∈ k.settings.naturals, tooLarge n = false := fun n hmem =>
      decide_eq_false (not_le.mpr (hsmall n hmem))
    have hfind : k.settings.naturals.find? tooLarge = none :=
      List.find?_eq_none.mpr fun n hmem => by simp [hn n hmem]
    rw [hfind] at hsave
    refine ⟨Toml.documentText k.settings.sections, by simp only [perform, hsave], ?_⟩
    intro file hcontent hformat
    have hload := Settings.load_saved hvalid hn henvironment hcontent hformat
    simp only [perform, hload, install]

/-- Weights of very different sizes, and a path over two lines with quotes of both kinds. -/
theorem save_then_load_weighted :
    let k : Keeper :=
      ⟨{ pool := { opcodeWeights := some [1e308, 5e-324, 0.1, -0.0, 3.0, 0.0, 1e-7, 2.5] },
         storage := { snapshotPath := some "a\n'''\"\\", loadOnStart := true } }⟩
    ∃ text, k.perform .save = (k, .saved text) ∧
      ({} : Keeper).perform
        (.load (some ⟨"a.toml", "a.toml", "a.toml", some text⟩) [("PATH", "/bin")]) =
          (k, .installed) := by
  intro k
  have hvalid : k.settings.check? = none := Option.isNone_iff_eq_none.mp (by decide +kernel)
  have henvironment : ∀ e ∈ [("PATH", "/bin")], Layer.key? e.1 = none := by
    simp only [List.forall_mem_singleton]
    decide +kernel
  have hsmall : ∀ n ∈ k.settings.naturals, n < 2 ^ 63 := by decide
  have hformat : Layer.extension "a.toml" = "toml" := by decide +kernel
  obtain ⟨text, hsave, hload⟩ := (save_then_load k {} _ hvalid henvironment).2 hsmall
  exact ⟨text, hsave, hload _ rfl hformat⟩

end Keeper

end Biotope
