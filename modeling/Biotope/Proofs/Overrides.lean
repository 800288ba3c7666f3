import Biotope.Proofs.Keepers
import Biotope.Proofs.SavedSettings
import Biotope.Proofs.Storage

/-!
# Overrides

A variable of the environment overrides a value of the settings, and the other sections stay as
they are. A text goes through as it is, unless it looks like a truth value or a number: then it is
the value that goes through, in its own spelling.
-/

namespace Biotope

/-! ## Texts of variables -/

/-- The text of a scalar where a text is wanted, if there is a value at all. -/
def Scalar.spelled : Scalar → Option String
  | absent => none
  | bool b => some (if b then "true" else "false")
  | int n => some (toString n)
  | float x => some (Decimal.plain.write x)
  | text s => some s

namespace Decimal

theorem parts?_digits {ds : List Char} (h : isDigits ds = true) : parts? ds ≠ none := by
  simp only [isDigits, Bool.and_eq_true, Bool.not_eq_true', List.all_eq_true] at h
  have htake : ds.takeWhile Char.isDigit = ds := List.takeWhile_eq_self_iff.mpr h.2
  have hdrop : ds.dropWhile Char.isDigit = [] := List.dropWhile_eq_nil_iff.mpr h.2
  simp [parts?, htake, hdrop, h.1]

theorem parts?_eq_none {s : String} (h : float? s = none) :
    parts? (splitSign s.toList).2 = none := by
  unfold float? at h
  cases hp : parts? (splitSign s.toList).2 with
  | none => rfl
  | some d =>
    simp only [hp] at h
    cases h

/-- What is a whole number is also a float. -/
theorem int?_eq_none {s : String} (h : float? s = none) : int? s = none := by
  have hdigits : ¬ isDigits (splitSign s.toList).2 = true :=
    fun hd => parts?_digits hd (parts?_eq_none h)
  simp only [int?, if_neg hdigits]

theorem mem_splitSign {cs : List Char} (h : '/' ∈ cs) : '/' ∈ (splitSign cs).2 := by
  unfold splitSign
  split
  · simpa using h
  · simpa using h
  · exact h

theorem isDigits_path {ds : List Char} (h : '/' ∈ ds) : isDigits ds = false := by
  have : ds.all Char.isDigit = false := by
    rw [List.all_eq_false]
    exact ⟨'/', h, by decide⟩
  simp [isDigits, this]

theorem mem_dropDigits {cs : List Char} (h : '/' ∈ cs) : '/' ∈ cs.dropWhile Char.isDigit := by
  rw [← List.takeWhile_append_dropWhile (p := Char.isDigit) (l := cs), List.mem_append] at h
  refine h.resolve_left fun ht => ?_
  exact absurd (List.mem_takeWhile_imp ht) (by decide)

/-- What comes behind the digits is no exponent. -/
theorem exponent_path {cs : List Char} (h : '/' ∈ cs) :
    ∃ e ds, cs = e :: ds ∧ (e = 'e' ∨ e = 'E' → isDigits (splitSign ds).2 = false) := by
  obtain ⟨e, ds, rfl⟩ := List.exists_cons_of_ne_nil (List.ne_nil_of_mem h)
  refine ⟨e, ds, rfl, fun he => ?_⟩
  have hne : '/' ≠ e := by rcases he with rfl | rfl <;> decide
  exact isDigits_path (mem_splitSign ((List.mem_cons.mp h).resolve_left hne))

theorem parts?_path {cs : List Char} (h : '/' ∈ cs) : parts? cs = none := by
  have hrest := mem_dropDigits h
  unfold parts?
  dsimp only
  split
  · rename_i fraction heq
    rw [heq] at hrest
    have hfraction := (List.mem_cons.mp hrest).resolve_left (by decide)
    obtain ⟨e, ds, hcs, hds⟩ := exponent_path (mem_dropDigits hfraction)
    by_cases he : e = 'e' ∨ e = 'E'
    · simp [hcs, he, hds he]
    · simp [hcs, he]
  · obtain ⟨e, ds, hcs, hds⟩ := exponent_path hrest
    by_cases he : e = 'e' ∨ e = 'E'
    · simp [hcs, he, hds he]
    · simp [hcs, he]

theorem named?_path {cs : List Char} (h : '/' ∈ cs) (negative : Bool) : named? negative cs = none := by
  have hmem : '/' ∈ (String.ofList (cs.map Char.toLower)).toList := by
    rw [String.toList_ofList, List.mem_map]
    exact ⟨'/', h, by decide⟩
  have hne (name : String) (hname : '/' ∉ name.toList) : String.ofList (cs.map Char.toLower) ≠ name :=
    fun he => hname (he ▸ hmem)
  simp [named?, hne "nan" (by decide), hne "inf" (by decide), hne "infinity" (by decide)]

/-- A name that leads into a directory is no number. -/
theorem float?_path {s : String} (h : '/' ∈ s.toList) : float? s = none := by
  have hmem := mem_splitSign h
  simp only [float?, parts?_path hmem, named?_path hmem]

end Decimal

structure Wordy (s : String) : Prop where
  notTrue : Text.lower s ≠ "true"
  notFalse : Text.lower s ≠ "false"
  notNumber : Decimal.float? s = none

theorem Wordy.ofVariable {s : String} (h : Wordy s) : Layer.ofVariable s = .text s := by
  simp [Layer.ofVariable, h.notTrue, h.notFalse, Decimal.int?_eq_none h.notNumber, h.notNumber]

/-- A slash stays where it is when the letters are made small. -/
theorem Text.mem_lowerChars {cs : List Char} (h : '/' ∈ cs) (inWord : Bool) :
    '/' ∈ lowerChars inWord cs := by
  induction cs generalizing inWord with
  | nil => cases h
  | cons c cs ih =>
    unfold lowerChars
    split
    · rename_i heq; cases heq
    · rename_i heq
      cases heq
      exact List.mem_cons_of_mem _ (ih ((List.mem_cons.mp h).resolve_left (by decide)) _)
    · rename_i heq
      cases heq
      rw [List.mem_append]
      rcases List.mem_cons.mp h with rfl | hcs
      · exact .inl (by decide)
      · exact .inr (ih hcs _)

theorem wordy_path {s : String} (h : '/' ∈ s.toList) : Wordy s := by
  have hmem : '/' ∈ (Text.lower s).toList := by
    rw [Text.lower, String.toList_ofList]
    exact Text.mem_lowerChars h false
  have hne (word : String) (hword : '/' ∉ word.toList) : Text.lower s ≠ word :=
    fun he => hword (he ▸ hmem)
  exact ⟨hne "true" (by decide), hne "false" (by decide), Decimal.float?_path h⟩

namespace Layer

theorem spelled_ofVariable (s : String) : (ofVariable s).spelled.isSome = true := by
  simp only [ofVariable]
  repeat' split
  all_goals rfl

theorem toOption_toText (v : Scalar) (origin : Option String) :
    toOption toText (.scalar v origin) = .ok v.spelled := by
  cases v <;> rfl

/-! ## Entries -/

theorem lookup?_change (key name : String) (f : Layer → Layer) (es : List (String × Layer)) :
    lookup? name (change key f es) =
      if name = key then some (f ((lookup? key es).getD blank)) else lookup? name es := by
  induction es with
  | nil =>
    by_cases h : name = key
    · simp [lookup?, change, h]
    · simp [lookup?, change, h, Ne.symm h]
  | cons e es ih =>
    by_cases he : e.1 = key
    · by_cases h : name = key
      · simp [lookup?, change, he, h]
      · simp [lookup?, change, he, h, Ne.symm h]
    · by_cases h : name = e.1
      · simp [lookup?, change, he, h]
      · have hne : (e.1 == name) = false := by simpa using Ne.symm h
        have hkey : (e.1 == key) = false := by simpa using he
        simp only [lookup?, change, hkey, List.find?_cons, hne, Bool.false_eq_true, if_false] at ih ⊢
        exact ih

def entry {α : Type} (name : String) (convert : Layer → Conversion α) (otherwise : α)
    (es : List (String × Layer)) : Conversion α :=
  match lookup? name es with
  | some l => atKey name (convert l)
  | none => .ok otherwise

section
variable {α σ : Type} {name : String} {c : Layer → Conversion α} {d : α}
  {es : List (String × Layer)}

theorem entry_change_self (f : Layer → Layer) :
    entry name c d (change name f es) = atKey name (c (f ((lookup? name es).getD blank))) := by
  rw [entry, lookup?_change, if_pos rfl]

theorem entry_change_of_ne {key : String} (h : name ≠ key) (f : Layer → Layer) :
    entry name c d (change key f es) = entry name c d es := by
  rw [entry, lookup?_change, if_neg h, entry]

/-- The first field is converted before the others. -/
theorem toFields_cons {step : String → Layer → σ → Conversion σ} {names : List String} {acc : σ}
    (f : α → σ) (hstep : ∀ l, step name l acc = c l >>= fun a => pure (f a)) (hacc : f d = acc) :
    toFields step es (name :: names) acc =
      entry name c d es >>= fun a => toFields step es names (f a) := by
  rw [toFields, entry]
  cases lookup? name es with
  | none => simp only [hacc, bind, Except.bind]
  | some l =>
    simp only [hstep]
    cases c l with
    | ok a => rfl
    | error e => rfl

end

end Layer

/-! ## Records -/

namespace Settings

open Layer
open Json (of_bind_ok)

def storageOf (es : List (String × Layer)) : Conversion StorageSettings := do
  let path ← entry "snapshot_path" (toOption toText) none es
  let loads ← entry "load_on_start" Layer.toBool false es
  let stores ← entry "store_on_stop" Layer.toBool false es
  return ⟨path, loads, stores⟩

theorem toRecord_table (es : List (String × Layer)) (origin : Option String) :
    toRecord StorageSettings.form StorageSettings.convert {} (.table es origin) = storageOf es := by
  show toFields StorageSettings.convert es ["snapshot_path", "load_on_start", "store_on_stop"] {} = _
  refine (toFields_cons (fun path => (⟨path, false, false⟩ : StorageSettings))
    (fun l => rfl) rfl).trans (bind_congr fun path => ?_)
  refine (toFields_cons (fun loads => (⟨path, loads, false⟩ : StorageSettings))
    (fun l => rfl) rfl).trans (bind_congr fun loads => ?_)
  exact toFields_cons (fun stores => (⟨path, loads, stores⟩ : StorageSettings)) (fun l => rfl) rfl

theorem ofLayer_table (es : List (String × Layer)) (origin : Option String) :
    ofLayer (.table es origin) = do
      let pool ← entry "pool" (toRecord PoolSettings.form PoolSettings.convert {}) {} es
      let evolution ← entry "evolution"
        (toRecord EvolutionSettings.form EvolutionSettings.convert {}) {} es
      let storage ← entry "persistence"
        (toRecord StorageSettings.form StorageSettings.convert {}) {} es
      return ⟨pool, evolution, storage⟩ := by
  show toFields convert es ["pool", "evolution", "persistence"] {} = _
  refine (toFields_cons (fun pool => (⟨pool, {}, {}⟩ : Settings))
    (fun l => rfl) rfl).trans (bind_congr fun pool => ?_)
  refine (toFields_cons (fun evolution => (⟨pool, evolution, {}⟩ : Settings))
    (fun l => rfl) rfl).trans (bind_congr fun evolution => ?_)
  exact toFields_cons (fun storage => (⟨pool, evolution, storage⟩ : Settings)) (fun l => rfl) rfl

/-! ## One value over the others -/

theorem changeEntry_eq (key : String) (f : Layer → Layer) (l : Layer) :
    ∃ origin, changeEntry key f l = .table (change key f l.entries) origin := by
  cases l with
  | table es origin => exact ⟨origin, rfl⟩
  | scalar v origin => exact ⟨none, rfl⟩
  | list items origin => exact ⟨none, rfl⟩

def overridden (v : Scalar) (origin : Option String) (below : Layer) : Layer :=
  changeEntry "persistence" (changeEntry "snapshot_path" fun _ => .scalar v origin) below

theorem storageOf_change (v : Scalar) (origin : Option String) (es : List (String × Layer)) :
    storageOf (change "snapshot_path" (fun _ => .scalar v origin) es) = do
      let loads ← entry "load_on_start" Layer.toBool false es
      let stores ← entry "store_on_stop" Layer.toBool false es
      return ⟨v.spelled, loads, stores⟩ := by
  rw [storageOf, entry_change_self, entry_change_of_ne (by decide), entry_change_of_ne (by decide),
    toOption_toText]
  rfl

theorem ofLayer_overridden (v : Scalar) (origin source : Option String)
    (es : List (String × Layer)) :
    ofLayer (overridden v origin (.table es source)) = do
      let pool ← entry "pool" (toRecord PoolSettings.form PoolSettings.convert {}) {} es
      let evolution ← entry "evolution"
        (toRecord EvolutionSettings.form EvolutionSettings.convert {}) {} es
      let storage ← atKey "persistence" <| storageOf <|
        change "snapshot_path" (fun _ => .scalar v origin) ((lookup? "persistence" es).getD blank).entries
      return ⟨pool, evolution, storage⟩ := by
  obtain ⟨origin', h⟩ := changeEntry_eq "snapshot_path" (fun _ => .scalar v origin)
    ((lookup? "persistence" es).getD blank)
  rw [overridden, changeEntry, ofLayer_table, entry_change_of_ne (by decide),
    entry_change_of_ne (by decide), entry_change_self, h, toRecord_table]

theorem of_atKey_ok {α : Type} {part : String} {c : Conversion α} {a : α}
    (h : atKey part c = .ok a) : c = .ok a := by
  cases c with
  | ok b => exact h
  | error e => cases h

/-- What the path becomes by the override. -/
theorem path_of_overridden {v : Scalar} {origin source : Option String}
    {es : List (String × Layer)} {u : Settings}
    (h : ofLayer (overridden v origin (.table es source)) = .ok u) :
    u.storage.snapshotPath = v.spelled := by
  rw [ofLayer_overridden] at h
  obtain ⟨pool, -, h⟩ := of_bind_ok h
  obtain ⟨evolution, -, h⟩ := of_bind_ok h
  obtain ⟨storage, hs, h⟩ := of_bind_ok h
  cases h
  rw [storageOf_change] at hs
  obtain ⟨loads, -, hs⟩ := of_bind_ok (of_atKey_ok hs)
  obtain ⟨stores, -, hs⟩ := of_bind_ok hs
  cases hs
  rfl

/-- Where there was a section on storage at all, its other values can still be read. -/
theorem storageOf_change_done (v : Scalar) (origin : Option String) {l : Layer}
    {s : StorageSettings} (h : toRecord StorageSettings.form StorageSettings.convert {} l = .ok s) :
    ∃ s', storageOf (change "snapshot_path" (fun _ => .scalar v origin) l.entries) = .ok s' := by
  rw [storageOf_change]
  cases l with
  | table es source =>
    rw [toRecord_table] at h
    obtain ⟨path, -, h⟩ := of_bind_ok h
    obtain ⟨loads, hloads, h⟩ := of_bind_ok h
    obtain ⟨stores, hstores, -⟩ := of_bind_ok h
    exact ⟨⟨v.spelled, loads, stores⟩, by rw [entries, hloads, hstores]; rfl⟩
  | scalar w source => exact ⟨⟨v.spelled, false, false⟩, rfl⟩
  | list items source => exact ⟨⟨v.spelled, false, false⟩, rfl⟩

theorem ofLayer_overridden_done (v : Scalar) (origin : Option String) {source : Option String}
    {es : List (String × Layer)} {t : Settings} (h : ofLayer (.table es source) = .ok t) :
    ∃ u, ofLayer (overridden v origin (.table es source)) = .ok u ∧ u.pool = t.pool ∧
      u.evolution = t.evolution := by
  rw [ofLayer_table] at h
  obtain ⟨pool, hpool, h⟩ := of_bind_ok h
  obtain ⟨evolution, hevolution, h⟩ := of_bind_ok h
  obtain ⟨storage, hstorage, h⟩ := of_bind_ok h
  cases h
  obtain ⟨s, hs⟩ : ∃ s, storageOf (change "snapshot_path" (fun _ => .scalar v origin)
      ((lookup? "persistence" es).getD blank).entries) = .ok s := by
    unfold entry at hstorage
    cases hl : lookup? "persistence" es with
    | none => exact ⟨⟨v.spelled, false, false⟩, storageOf_change v origin []⟩
    | some l =>
      rw [hl] at hstorage
      exact storageOf_change_done v origin (of_atKey_ok hstorage)
  refine ⟨⟨pool, evolution, s⟩, ?_, rfl, rfl⟩
  rw [ofLayer_overridden, hpool, hevolution, hs]
  rfl

/-! ## Sources -/

def below : Option SettingsFile → Except SourceError Layer
  | some f => (putAll · empty) <$> ofFile f
  | none => .ok empty

theorem layer_eq (file : Option SettingsFile) (environment : List (String × String)) :
    layer file environment = below file >>= fun l => pure (putAll (ofEnvironment environment) l) := by
  cases file <;> rfl

theorem putAll_table (source es : List (String × Layer)) (origin : Option String) :
    ∃ fs o, putAll source (.table es origin) = .table fs o := by
  induction source generalizing es origin with
  | nil => exact ⟨es, origin, rfl⟩
  | cons e source ih => exact ih _ _

theorem below_table {file : Option SettingsFile} {l : Layer} (h : below file = .ok l) :
    ∃ es origin, l = .table es origin := by
  cases file with
  | none =>
    cases h
    exact ⟨[], none, rfl⟩
  | some f =>
    rw [below] at h
    cases hf : ofFile f with
    | error e =>
      rw [hf] at h
      cases h
    | ok source =>
      rw [hf] at h
      cases h
      exact putAll_table source [] none

theorem put_path (v : Scalar) (origin : Option String) (l : Layer) :
    Layer.put "persistence.snapshot_path" (.scalar v origin) l = overridden v origin l := by
  have hpath : Path.ofKey "persistence.snapshot_path" = ⟨"persistence", [.key "snapshot_path"]⟩ := by
    decide +kernel
  have hlay : lay (.scalar v origin) = fun _ => .scalar v origin := by
    funext below
    simp [lay]
  simp only [Layer.put, hpath, changeAt, hlay, overridden]

theorem load_eq_ok_iff {file : Option SettingsFile} {environment : List (String × String)}
    {t : Settings} : load file environment = .ok t ↔
      ∃ l, below file = .ok l ∧ ofLayer (putAll (ofEnvironment environment) l) = .ok t ∧
        t.check? = none := by
  rw [load, layer_eq]
  cases below file with
  | error e => simp [bind, Except.bind, Except.mapError]
  | ok l =>
    cases hl : ofLayer (putAll (ofEnvironment environment) l) with
    | error e => simp [bind, Except.bind, Except.mapError, pure, Except.pure, hl]
    | ok u =>
      simp only [bind, Except.bind, Except.mapError, pure, Except.pure, hl, checked_eq_ok_iff]
      constructor
      · rintro ⟨rfl, ht⟩
        exact ⟨l, rfl, hl, ht⟩
      · rintro ⟨_, hl', h, ht⟩
        cases hl'
        rw [hl] at h
        cases h
        exact ⟨rfl, ht⟩

theorem check?_with_path {s t : Settings} (ht : t.check? = none) (hpool : s.pool = t.pool)
    (hevolution : s.evolution = t.evolution) (hpath : s.storage.snapshotPath.isSome = true) :
    s.check? = none := by
  have hstorage : s.storage.check? = none := by
    simp [StorageSettings.check?, Option.isSome_iff_ne_none.mp hpath]
  rw [check?, Option.or_eq_none_iff] at ht ⊢
  rw [hpool, hevolution]
  exact ⟨ht.1, hstorage⟩

theorem ofEnvironment_alone {before after : List (String × String)} {name s key : String}
    (hname : key? name = some key) (hothers : ∀ e ∈ before ++ after, key? e.1 = none) :
    ofEnvironment (before ++ (name, s) :: after) =
      [(key, .scalar (ofVariable s) "the environment")] := by
  have hbefore := ofEnvironment_nil fun e he => hothers e (List.mem_append_left _ he)
  have hafter := ofEnvironment_nil fun e he => hothers e (List.mem_append_right _ he)
  rw [ofEnvironment] at hbefore hafter ⊢
  simp [List.filterMap_append, hname, hbefore, hafter]

section
variable {file : Option SettingsFile} {before after : List (String × String)} {name s : String}
  (hname : key? name = some "persistence.snapshot_path")
  (hothers : ∀ e ∈ before ++ after, key? e.1 = none)
include hname hothers

theorem load_with_path_iff {u : Settings} : load file (before ++ (name, s) :: after) = .ok u ↔
    ∃ l, below file = .ok l ∧ ofLayer (overridden (ofVariable s) "the environment" l) = .ok u ∧
      u.check? = none := by
  simp [load_eq_ok_iff, ofEnvironment_alone hname hothers, putAll, put_path]

theorem path_of_load {u : Settings} (h : load file (before ++ (name, s) :: after) = .ok u) :
    u.storage.snapshotPath = (ofVariable s).spelled := by
  obtain ⟨l, hl, hu, -⟩ := (load_with_path_iff hname hothers).mp h
  obtain ⟨es, origin, rfl⟩ := below_table hl
  exact path_of_overridden hu

theorem load_with_path {t : Settings} (h : load file (before ++ after) = .ok t) :
    ∃ u, load file (before ++ (name, s) :: after) = .ok u ∧ u.pool = t.pool ∧
      u.evolution = t.evolution := by
  obtain ⟨l, hl, ht, hcheck⟩ := load_eq_ok_iff.mp h
  rw [ofEnvironment_nil hothers] at ht
  obtain ⟨es, origin, rfl⟩ := below_table hl
  obtain ⟨u, hu, hpool, hevolution⟩ :=
    ofLayer_overridden_done (ofVariable s) (some "the environment") ht
  have hpath : u.storage.snapshotPath.isSome = true := by
    rw [path_of_overridden hu]
    exact spelled_ofVariable s
  have hucheck := check?_with_path hcheck hpool hevolution hpath
  exact ⟨u, (load_with_path_iff hname hothers).mpr ⟨_, hl, hu, hucheck⟩, hpool, hevolution⟩

end

/-- With the path given by a variable, and no other variable, whatever could be loaded still can,
and the pool and the evolution are set up as before. The path is the text of the variable, in
particular if it leads into a directory; but a truth value or a number is spelled anew. -/
theorem path_from_variable (file : Option SettingsFile) (before after : List (String × String))
    (name s : String) (hname : key? name = some "persistence.snapshot_path")
    (hothers : ∀ e ∈ before ++ after, key? e.1 = none) :
    (∀ t, load file (before ++ after) = .ok t → ∃ u,
      load file (before ++ (name, s) :: after) = .ok u ∧ u.pool = t.pool ∧
        u.evolution = t.evolution) ∧
    ∀ u, load file (before ++ (name, s) :: after) = .ok u →
      u.storage.snapshotPath = (ofVariable s).spelled ∧
        (Wordy s ∨ '/' ∈ s.toList → u.storage.snapshotPath = some s) := by
  refine ⟨fun t => load_with_path hname hothers, fun u hu => ?_⟩
  have hpath := path_of_load hname hothers hu
  refine ⟨hpath, fun h => ?_⟩
  have hwordy : Wordy s := h.elim id wordy_path
  rw [hpath, hwordy.ofVariable]
  rfl

/-- A number in another directory stays as it was written. -/
theorem path_from_variable_slash :
    let name := "GENEPOOL__PERSISTENCE__SNAPSHOT_PATH"
    key? name = some "persistence.snapshot_path" ∧ (∀ e ∈ [("PATH", "/bin")], key? e.1 = none) ∧
      ∃ u, load none [("PATH", "/bin"), (name, "./007")] = .ok u ∧
        u.storage.snapshotPath = some "./007" := by
  intro name
  have hname : key? name = some "persistence.snapshot_path" := by decide +kernel
  have hothers : ∀ e ∈ [("PATH", "/bin")], key? e.1 = none := by
    simp only [List.forall_mem_singleton]
    decide +kernel
  obtain ⟨hdone, hpath⟩ := path_from_variable none [("PATH", "/bin")] [] name "./007" hname hothers
  have hdefault : load none [("PATH", "/bin")] = .ok {} := rfl
  obtain ⟨u, hu, -⟩ := hdone _ hdefault
  exact ⟨hname, hothers, u, hu, (hpath u hu).2 (.inr (by decide))⟩

/-- The path is read as a number, and so it loses two digits. -/
theorem path_respelled :
    let name := "GENEPOOL__PERSISTENCE__SNAPSHOT_PATH"
    key? name = some "persistence.snapshot_path" ∧ ∃ u, load none [(name, "007")] = .ok u ∧
      u.storage.snapshotPath = some "7" ∧ u.storage.snapshotPath ≠ some "007" := by
  intro name
  have hpath : (load none [(name, "007")]).toOption.bind (·.storage.snapshotPath) = some "7" := by
    decide +kernel
  refine ⟨by decide +kernel, ?_⟩
  cases hload : load none [(name, "007")] with
  | error f =>
    rw [hload] at hpath
    cases hpath
  | ok u =>
    rw [hload] at hpath
    have hseven : u.storage.snapshotPath = some "7" := hpath
    exact ⟨u, rfl, hseven, by rw [hseven]; decide⟩

end Settings

end Biotope
