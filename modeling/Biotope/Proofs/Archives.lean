import Biotope.Archive
import Biotope.Proofs.Admission
import Biotope.Proofs.Genes

/-!
# Archives through JSON

The parts of an archive are read back one by one: gauges, buckets under the numbers of
their species, and the record that holds them. Buckets in ascending order keep their
order, since each is put behind those before it.
-/

namespace Biotope

open Json (Value Node Entry Reads ReadsItems ReadsEntries Decoded)

/-! ## Numbers and lists -/

namespace Json

theorem toInt_ofInt {n least greatest : Int} (expected : String) (h : least ≤ n)
    (h' : n ≤ greatest) : (Number.ofInt n).toInt least greatest expected = .ok n := by
  unfold Number.ofInt
  by_cases hn : n < 0
  · have hle : least ≤ -(n.natAbs : Int) := by omega
    rw [if_pos hn, Number.toInt, if_pos hle]
    exact congrArg Except.ok (by omega)
  · have hle : (n.natAbs : Int) ≤ greatest := by omega
    rw [if_neg hn, Number.toInt, if_pos hle]
    exact congrArg Except.ok (by omega)

theorem decodeInt_reads {node : Node} {n least greatest : Int} (expected : String)
    (hnode : Reads node (.int n)) (h : least ≤ n) (h' : n ≤ greatest) :
    decodeInt least greatest expected node = .ok n := by
  cases hnode with
  | int n stop =>
    have hn := toInt_ofInt expected h h'
    by_cases h0 : n < 0
    · simp only [Number.ofInt, if_pos h0] at hn ⊢
      simp only [decodeInt, locating, hn, Except.mapError]
    · simp only [Number.ofInt, if_neg h0] at hn ⊢
      simp only [decodeInt, locating, hn, Except.mapError]

theorem decodeI64_reads {node : Node} {n : Int64} (h : Reads node (.int n.toInt)) :
    decodeI64 node = .ok n := by
  have hn := decodeInt_reads "i64" h (Int64.minValue_le_toInt n) (Int64.toInt_le n)
  simp only [decodeI64, hn, bind, Except.bind, Int64.ofInt_toInt]
  rfl

theorem whole_toInt (n : Int64) : Whole n.toInt := by
  have h := Int64.le_toInt n
  have h' := Int64.toInt_lt n
  unfold Whole
  omega

theorem decodeProbability_reads {node : Node} {p : Probability} (h : Reads node (.float p.value)) :
    decodeProbability node = .ok p := by
  cases h
  simp only [decodeProbability, decodeFloat, Number.toFloat, Probability.ofFloat?_value, bind,
    Except.bind]
  rfl

theorem decodeItems_reads {α} {decode : Node → Decoded α} {encode : α → Value}
    (h : ∀ {node a}, Reads node (encode a) → decode node = .ok a) {items : List (Item Node)}
    {as : List α} (hitems : ReadsItems items (as.map encode)) :
    decodeItems decode items = .ok as := by
  induction as generalizing items with
  | nil =>
    cases hitems
    rfl
  | cons a as ih =>
    cases hitems with
    | cons follow next hnode hrest =>
      simp only [decodeItems, locating, h hnode, ih hrest, Except.mapError, bind, Except.bind]
      rfl

theorem decodeList_reads {α} {decode : Node → Decoded α} {encode : α → Value}
    (h : ∀ {node a}, Reads node (encode a) → decode node = .ok a) {node : Node} {as : List α}
    (hnode : Reads node (.array (as.map encode))) : decodeList decode node = .ok as := by
  cases hnode with
  | array start stop hitems =>
    simp only [decodeList, decodeItems_reads h hitems, sound, Ending.flawWith?, bind, Except.bind]
    rfl

/-! ## Records -/

section
variable {σ α : Type} {field : String → Node → σ → Decoded σ}

inductive Fills (field : String → Node → σ → Decoded σ) : List (String × Value) → σ → σ → Prop
  | nil (acc : σ) : Fills field [] acc acc
  | cons {name : String} {v : Value} {fs : List (String × Value)} {acc acc' out : σ} :
      (∀ {node}, Reads node v → field name node acc = .ok acc') → Fills field fs acc' out →
      Fills field ((name, v) :: fs) acc out

theorem decodeEntries_reads {fields : List String} {fs : List (String × Value)} {acc out : σ}
    (hf : Fills field fs acc out) {entries : List (Entry Node)} (h : ReadsEntries entries fs)
    {seen : List String} (hin : ∀ name ∈ fs.map (·.1), name ∈ fields)
    (hnew : ∀ name ∈ fs.map (·.1), name ∉ seen) (hnodup : (fs.map (·.1)).Nodup) :
    ∃ all, decodeEntries fields field entries seen acc = .ok (all, out) := by
  induction hf generalizing entries seen with
  | nil acc =>
    cases h
    exact ⟨seen, rfl⟩
  | @cons name v fs acc acc' out hfield _ ih =>
    cases h with
    | cons rest off colon follow next hnode hrest =>
      rw [List.map_cons, List.nodup_cons] at hnodup
      have hseen : ∀ n ∈ fs.map (·.1), n ∉ name :: seen := by
        intro n hn hmem
        rcases List.mem_cons.mp hmem with rfl | hmem
        · exact hnodup.1 hn
        · exact hnew n (List.mem_cons_of_mem _ hn) hmem
      obtain ⟨all, hall⟩ := ih hrest (fun n hn => hin n (List.mem_cons_of_mem _ hn)) hseen hnodup.2
      have hknown : fields.contains name = true := by simpa using hin name List.mem_cons_self
      have hfresh : seen.contains name = false := by simpa using hnew name List.mem_cons_self
      refine ⟨all, ?_⟩
      simp only [decodeEntries, StringToken.flaw?, Option.or_none, sound, hknown, hfresh,
        hfield hnode, locating, Except.mapError, bind, Except.bind]
      exact hall

theorem decodeRecord_reads (form : Form) {start acc : σ} {finish : σ → Except DataError α} {a : α}
    {fs : List (String × Value)} (hf : Fills field fs start acc) (ha : finish acc = .ok a)
    (hnames : fs.map (·.1) = form.fields) (hnodup : form.fields.Nodup) {node : Node}
    (h : Reads node (.object fs)) : decodeRecord form field start finish node = .ok a := by
  cases h with
  | object first stop h =>
    obtain ⟨all, hall⟩ := decodeEntries_reads hf h (fun n hn => hnames ▸ hn)
      (fun n _ => List.not_mem_nil) (hnames ▸ hnodup)
    simp only [decodeRecord, hall, sound, Ending.flawWith?, ha, locating, Except.mapError, bind,
      Except.bind]

end

end Json

/-! ## Gauges -/

theorem Gauge.decode_toJson {node : Node} {g : Gauge} (h : Reads node g.toJson) :
    Gauge.decode node = .ok g := by
  have hcurrent (p : GaugeParts) {node : Node} (h : Reads node (.int g.current.toInt)) :
      GaugeParts.field "current" node p = .ok { p with current := some g.current } := by
    simp only [GaugeParts.field, Json.decodeI64_reads h]
    rfl
  have hlow (p : GaugeParts) {node : Node} (h : Reads node (.int g.low.toInt)) :
      GaugeParts.field "low" node p = .ok { p with low := some g.low } := by
    simp only [GaugeParts.field, Json.decodeI64_reads h]
    rfl
  have hhigh (p : GaugeParts) {node : Node} (h : Reads node (.int g.high.toInt)) :
      GaugeParts.field "high" node p = .ok { p with high := some g.high } := by
    simp only [GaugeParts.field, Json.decodeI64_reads h]
    rfl
  have hfinish : GaugeParts.finish ⟨some g.current, some g.low, some g.high⟩ = .ok g := rfl
  exact Json.decodeRecord_reads Gauge.form
    (.cons (hcurrent {}) (.cons (hlow _) (.cons (hhigh _) (.nil _)))) hfinish rfl (by decide) h

theorem Gauge.toJson_writable (g : Gauge) : g.toJson.Writable :=
  ⟨Json.whole_toInt _, Json.whole_toInt _, Json.whole_toInt _, trivial⟩

/-! ## Buckets -/

theorem Gene.allToJson_eq (gs : List Gene) : allToJson gs = gs.map toJson := by
  induction gs with
  | nil => rfl
  | cons g gs ih => rw [allToJson, ih, List.map_cons]

theorem Species.decode_toJson {node : Node} {s : Species} (h : Reads node s.toJson) :
    Species.decode node = .ok s := by
  have hlist := Json.decodeList_reads Gene.decode_toJson h
  simp only [Species.decode, hlist, bind, Except.bind]
  rfl

theorem Species.toJson_writable (s : Species) : s.toJson.Writable := by
  rw [Species.toJson, ← Gene.allToJson_eq]
  exact Gene.allToJson_writable _

namespace Json

theorem writeChars_digits {ds : List Char} (h : ∀ c ∈ ds, c.isDigit = true) (rest : List Char) :
    writeChars ds rest = ds ++ '"' :: rest := by
  induction ds with
  | nil => rfl
  | cons d ds ih =>
    have hd := h d List.mem_cons_self
    have hescaped : escaped d = [d] := by
      unfold escaped
      split
      case h_8 =>
        apply if_neg
        have h0 : 48 ≤ d.toNat := by
          simp only [Char.isDigit, Bool.and_eq_true, decide_eq_true_eq] at hd
          exact hd.1
        omega
      all_goals exact absurd hd (by decide)
    rw [writeChars, hescaped, ih fun c hc => h c (List.mem_cons_of_mem _ hc)]
    rfl

theorem stops_quote (cs : List Char) : Stops ('"' :: cs) := by
  rintro c ⟨⟩
  decide

end Json

theorem decodeKey_text (id : SpeciesId) (rest : List Char) (off : Nat) :
    decodeKey ⟨Json.writeChars (toString id.value.toNat).toList rest, off⟩ = .ok id := by
  have hlt : id.value.toNat < 2 ^ 32 := id.value.toNat_lt
  have hdigits (c : Char) (hc : c ∈ (toString id.value.toNat).toList) : c.isDigit = true := by
    refine Decimal.isDigit_toDigits (n := id.value.toNat) ?_
    rwa [Nat.toString_eq_repr, Nat.toList_repr] at hc
  have hwhole : Json.Whole id.value.toNat := by
    unfold Json.Whole
    omega
  obtain ⟨s, hs, htext, hnumber⟩ := Json.int_spelling hwhole
  have htext : s.text = (toString id.value.toNat).toList := htext
  have hnatural : Json.Number.ofInt id.value.toNat = .natural id.value.toNat := by
    simp [Json.Number.ofInt]
  obtain ⟨k, hk⟩ := Json.readNumber_text off hs (Json.stops_quote rest)
  have hn : (Json.Number.ofInt id.value.toNat).toInt 0 (UInt32.size - 1) "u32" =
      .ok id.value.toNat := by
    refine Json.toInt_ofInt _ (by omega) ?_
    show (id.value.toNat : Int) ≤ 4294967296 - 1
    omega
  -- the key is read as a number because of its first character
  have hhead : (s.text ++ '"' :: rest).head?.any (fun c => c.isDigit || c = '-') = true := by
    obtain ⟨c, cs, hc, hfirst⟩ := hs.text_eq_cons
    rw [hc]
    rcases hfirst with rfl | hfirst
    · rfl
    · simp [hfirst]
  rw [hnumber, hnatural] at hk
  rw [hnatural] at hn
  rw [Json.writeChars_digits hdigits, ← htext]
  simp only [decodeKey, hhead, hk, hn, Json.locating, Except.mapError, bind, Except.bind]
  rw [if_neg (by decide), Int.toNat_natCast, Nat.toUInt32_eq, UInt32.ofNat_toNat]
  rfl

theorem decodeBuckets_reads {entries : List (Entry Node)} {acc bs : List (SpeciesId × Species)}
    (h : ReadsEntries entries (bs.map fun b => (toString b.1.value.toNat, b.2.toJson)))
    (hbs : Pool.Ascending (acc ++ bs)) : decodeBuckets acc entries = .ok (acc ++ bs) := by
  induction bs generalizing acc entries with
  | nil =>
    cases h
    rw [List.append_nil]
    rfl
  | cons b bs ih =>
    cases h with
    | cons rest off colon follow next hnode hrest =>
      have hlast : ∀ c ∈ acc, c.1.value < b.1.value := fun c hc =>
        (List.pairwise_append.mp hbs).2.2 c hc b List.mem_cons_self
      have hinsert : Pool.insertBucket b.1 b.2 acc = acc ++ [b] := by
        have := Pool.insertBucket_append b.2 [] hlast
        rwa [List.append_nil] at this
      rw [List.append_cons] at hbs ⊢
      simp only [decodeBuckets, decodeKey_text, Species.decode_toJson hnode, Json.locating,
        Except.mapError, bind, Except.bind, hinsert]
      exact ih hrest hbs

theorem decodeBucketMap_reads {node : Node} {bs : List (SpeciesId × Species)}
    (h : Reads node (bucketsToJson bs)) (hbs : Pool.Ascending bs) :
    decodeBucketMap node = .ok bs := by
  cases h with
  | object start stop h =>
    have hbuckets : decodeBuckets [] _ = .ok ([] ++ bs) := decodeBuckets_reads h hbs
    simp only [decodeBucketMap, hbuckets, bind, Except.bind]
    rfl

theorem bucketsToJson_writable (bs : List (SpeciesId × Species)) :
    (bucketsToJson bs).Writable := by
  show Json.FieldsWritable _
  induction bs with
  | nil => trivial
  | cons b bs ih => exact ⟨b.2.toJson_writable, ih⟩

/-! ## Censuses -/

theorem Census.decode_toJson {node : Node} {c : Census} (h : Reads node c.toJson)
    (hbs : Pool.Ascending c.buckets) : Census.decode node = .ok c := by
  have htemperature (p : CensusParts) {node : Node} (h : Reads node (.float c.temperature.value)) :
      CensusParts.field "temperature" node p = .ok { p with temperature := some c.temperature } := by
    simp only [CensusParts.field, Json.decodeProbability_reads h]
    rfl
  have hgenes (p : CensusParts) {node : Node} (h : Reads node c.genes.toJson) :
      CensusParts.field "genes" node p = .ok { p with genes := some c.genes } := by
    simp only [CensusParts.field, Gauge.decode_toJson h]
    rfl
  have hspecies (p : CensusParts) {node : Node} (h : Reads node c.species.toJson) :
      CensusParts.field "species_count" node p = .ok { p with species := some c.species } := by
    simp only [CensusParts.field, Gauge.decode_toJson h]
    rfl
  have hcreatures (p : CensusParts) {node : Node} (h : Reads node c.creatures.toJson) :
      CensusParts.field "creatures" node p = .ok { p with creatures := some c.creatures } := by
    simp only [CensusParts.field, Gauge.decode_toJson h]
    rfl
  have hbuckets (p : CensusParts) {node : Node} (h : Reads node (bucketsToJson c.buckets)) :
      CensusParts.field "buckets" node p = .ok { p with buckets := some c.buckets } := by
    simp only [CensusParts.field, decodeBucketMap_reads h hbs]
    rfl
  have hfinish : CensusParts.finish ⟨some c.temperature, some c.genes, some c.species,
      some c.creatures, some c.buckets⟩ = .ok c := rfl
  exact Json.decodeRecord_reads Census.form
    (.cons (htemperature {}) (.cons (hgenes _) (.cons (hspecies _) (.cons (hcreatures _)
      (.cons (hbuckets _) (.nil _)))))) hfinish rfl (by decide) h

theorem Census.toJson_writable (c : Census) : c.toJson.Writable :=
  ⟨Decimal.isFinite_of_inUnit c.temperature.inUnit, c.genes.toJson_writable,
    c.species.toJson_writable, c.creatures.toJson_writable, bucketsToJson_writable c.buckets,
    trivial⟩

theorem Census.toPool_census {p : Pool} (h : Pool.Filed p.buckets) : p.census.toPool = .ok p :=
  toPool_eq_ok_iff.mpr ⟨error?_eq_none_iff.mpr (Pool.filed_iff.mp h).2, rfl⟩

end Biotope
