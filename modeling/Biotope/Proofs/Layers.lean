import Biotope.Proofs.TomlDocuments
import Biotope.Settings.Source

/-!
# Layers of documents

The sections of a document, laid over nothing, are the tables that it was written for. Keys
without points and brackets mean themselves, and entries under new keys stay in order.
-/

namespace Biotope.Layer

/-! ## Entries -/

section
variable {key : String} {es : List (String × Layer)} (h : key ∉ es.map (·.1))
include h

theorem change_new (f : Layer → Layer) : change key f es = es ++ [(key, f blank)] := by
  induction es with
  | nil => rfl
  | cons e es ih =>
    simp only [List.map_cons, List.mem_cons, not_or] at h
    simp [change, Ne.symm h.1, ih h.2]

theorem changeEntry_new (f : Layer → Layer) (origin : Option String) :
    changeEntry key f (.table es origin) = .table (es ++ [(key, f blank)]) origin := by
  rw [changeEntry, change_new h]

end

def isLeaf : Layer → Bool
  | .table _ _ => false
  | _ => true

theorem lay_leaf {l : Layer} (h : l.isLeaf = true) (below : Layer) : lay l below = l := by
  cases l with
  | scalar v origin => simp [lay]
  | list is origin => simp [lay]
  | table es origin => cases h

theorem layEntries_new {es below : List (String × Layer)} {origin : Option String}
    (hleaf : ∀ e ∈ es, e.2.isLeaf = true) (h : (below.map (·.1) ++ es.map (·.1)).Nodup) :
    layEntries es (.table below origin) = .table (below ++ es) origin := by
  induction es generalizing below with
  | nil => simp [layEntries]
  | cons e es ih =>
    have hnew : e.1 ∉ below.map (·.1) := Toml.new_of_nodup h
    have hnodup : ((below ++ [e]).map (·.1) ++ es.map (·.1)).Nodup := by simpa using h
    have hrest := ih (fun e he => hleaf e (List.mem_cons_of_mem _ he)) hnodup
    rw [layEntries, layEntry, changeEntry_new hnew, lay_leaf (hleaf e List.mem_cons_self)]
    refine hrest.trans ?_
    rw [List.append_assoc]
    rfl

/-! ## Keys -/

theorem ofKey_bare {key : String} (h : Toml.Bare key) : Path.ofKey key = ⟨key, []⟩ := by
  have htake : key.toList.takeWhile isNameChar = key.toList := List.takeWhile_eq_self_iff.mpr h.2
  have hdrop : key.toList.dropWhile isNameChar = [] := List.dropWhile_eq_nil_iff.mpr h.2
  have hsome : key.toList.isEmpty = false := by simpa using h.1
  have hsteps (n : Nat) : steps? n [] = some [] := by cases n <;> rfl
  simp [Path.ofKey, htake, hdrop, hsome, hsteps]

theorem put_new {key : String} {es below : List (String × Layer)} {origin source : Option String}
    (hkey : Toml.Bare key) (hnew : key ∉ below.map (·.1)) (hleaf : ∀ e ∈ es, e.2.isLeaf = true)
    (h : (es.map (·.1)).Nodup) :
    put key (.table es source) (.table below origin) =
      .table (below ++ [(key, .table es none)]) origin := by
  have hnodup : (([] : List (String × Layer)).map (·.1) ++ es.map (·.1)).Nodup := by simpa using h
  have hlay : lay (.table es source) blank = .table es none := layEntries_new hleaf hnodup
  rw [put, ofKey_bare hkey, changeEntry_new hnew]
  exact congrArg (fun l => table (below ++ [(key, l)]) origin) hlay

/-! ## Documents -/

theorem entriesOfToml_eq (origin : String) (es : List (String × Toml.Value)) :
    entriesOfToml origin es = es.map fun e => (e.1, ofToml origin e.2) := by
  induction es with
  | nil => simp [entriesOfToml]
  | cons e es ih =>
    obtain ⟨key, v⟩ := e
    simp [entriesOfToml, entryOfToml, ih]

theorem isLeaf_ofToml {depth : Nat} {v : Toml.Value} (h : Toml.Readable depth v) (origin : String) :
    (ofToml origin v).isLeaf = true := by
  cases h <;> simp [ofToml, isLeaf]

def ofSection (origin : String) (s : Toml.Section) : String × Layer :=
  (s.name, .table (entriesOfToml origin s.entries) none)

theorem putAll_sections (origin : String) {ss : List Toml.Section} (hss : ∀ s ∈ ss, s.Plain)
    {below : List (String × Layer)} {source : Option String}
    (hnames : (below.map (·.1) ++ ss.map (·.name)).Nodup) :
    putAll (entriesOfToml origin (ss.map fun s => (s.name, .table s.entries))) (.table below source) =
      .table (below ++ ss.map (ofSection origin)) source := by
  induction ss generalizing below with
  | nil => simp [entriesOfToml, putAll]
  | cons s ss ih =>
    have hs := hss s List.mem_cons_self
    have hnew : s.name ∉ below.map (·.1) := Toml.new_of_nodup hnames
    have hleaf : ∀ e ∈ entriesOfToml origin s.entries, e.2.isLeaf = true := by
      simp only [entriesOfToml_eq, List.mem_map]
      rintro _ ⟨e, he, rfl⟩
      exact isLeaf_ofToml (hs.values e he) origin
    have hkeys : ((entriesOfToml origin s.entries).map (·.1)).Nodup := by
      simpa [entriesOfToml_eq, Function.comp_def] using hs.distinct
    have hput : put s.name (.table (entriesOfToml origin s.entries) origin) (.table below source) =
        .table (below ++ [ofSection origin s]) source := put_new hs.name hnew hleaf hkeys
    have hnames' : ((below ++ [ofSection origin s]).map (·.1) ++ ss.map (·.name)).Nodup := by
      simpa [ofSection] using hnames
    have hrest := ih (fun t ht => hss t (List.mem_cons_of_mem _ ht)) hnames'
    simp only [List.map_cons, entriesOfToml, entryOfToml, ofToml, putAll, List.foldl_cons] at hrest ⊢
    rw [hput]
    refine hrest.trans ?_
    simp [ofSection]

/-- A file of sections that the reader can tell apart. -/
theorem ofFile_sections {file : SettingsFile} {ss : List Toml.Section}
    (hcontent : file.content = some (Toml.documentText ss))
    (hformat : extension file.location = "toml") (hss : ∀ s ∈ ss, s.Plain) (hnames : (ss.map (·.name)).Nodup) :
    ofFile file = .ok (entriesOfToml file.name (ss.map fun s => (s.name, .table s.entries))) := by
  have hmark := Toml.head_documentText ss
  simp [ofFile, hcontent, hformat, hmark, readToml, Toml.read_documentText hss hnames]

end Biotope.Layer
