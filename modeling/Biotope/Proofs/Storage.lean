import Biotope.Proofs.Archives
import Biotope.Proofs.Courses
import Biotope.Proofs.Timestamps

/-!
# Stored pools

A pool is filed in every state that it can reach, whether it grew from an empty pool or
was loaded. So the text that is stored of it can be loaded again, and nothing of the
pool is lost.
-/

namespace Biotope

open Json (Value Node Entry Item Decoded)

/-! ## What is decoded -/

namespace Json

theorem of_bind_ok {ε α β : Type} {d : Except ε α} {f : α → Except ε β} {b : β}
    (h : (d >>= f) = .ok b) : ∃ a, d = .ok a ∧ f a = .ok b := by
  cases d with
  | error e => cases h
  | ok a => exact ⟨a, rfl, h⟩

theorem of_locating_ok {α : Type} {d : Decoded α} {off : Nat} {a : α}
    (h : locating off d = .ok a) : d = .ok a := by
  cases d with
  | error e => cases h
  | ok b => exact h

theorem of_required_ok {α : Type} {name : String} {o : Option α} {a : α}
    (h : required name o = .ok a) : o = some a := by
  cases o with
  | none => cases h
  | some b =>
    cases h
    rfl

theorem wrongType_ne_ok {α : Type} {expected : String} {node : Node} {a : α} :
    wrongType expected node ≠ .ok a := by
  intro h
  cases node with
  | number n stop => cases n <;> cases h
  | string s stop =>
    obtain ⟨-, -, h⟩ := of_bind_ok h
    cases h
  | null | bool | list | object | broken | missing => cases h

section
variable {σ α : Type} {P : σ → Prop} {field : String → Node → σ → Decoded σ}
  (hfield : ∀ {name node acc acc'}, P acc → field name node acc = .ok acc' → P acc')
include hfield

theorem of_decodeEntries_ok {fields : List String} {entries : List (Entry Node)}
    {seen all : List String} {acc out : σ} (hacc : P acc)
    (h : decodeEntries fields field entries seen acc = .ok (all, out)) : P out := by
  induction entries generalizing seen acc with
  | nil =>
    cases h
    exact hacc
  | cons e es ih =>
    rw [decodeEntries] at h
    obtain ⟨-, -, h⟩ := of_bind_ok h
    dsimp only at h
    split at h
    · split at h
      · obtain ⟨u, h1, -⟩ := of_bind_ok h
        cases h1
      · obtain ⟨acc', h1, h⟩ := of_bind_ok h
        exact ih (hfield hacc (of_locating_ok h1)) h
    · obtain ⟨-, -, h⟩ := of_bind_ok h
      exact ih hacc h

theorem of_decodeValues_ok {form : Form} {ending : Ending} {names : List String}
    {items : List (Item Node)} {behind n : Nat} {acc out : σ} (hacc : P acc)
    (h : decodeValues form field ending names items behind n acc = .ok out) : P out := by
  induction names generalizing items behind n acc with
  | nil =>
    cases items with
    | nil =>
      obtain ⟨-, -, h⟩ := of_bind_ok h
      cases h
      exact hacc
    | cons i is => cases h
  | cons name names ih =>
    cases items with
    | nil =>
      rw [decodeValues] at h
      obtain ⟨-, -, h⟩ := of_bind_ok h
      split at h
      · exact ih hacc h
      · cases of_locating_ok h
    | cons i is =>
      rw [decodeValues] at h
      obtain ⟨acc', h1, h⟩ := of_bind_ok h
      exact ih (hfield hacc (of_locating_ok h1)) h

/-- What each field keeps holds of the record that is finished. -/
theorem of_decodeRecord_ok {form : Form} {start : σ} {finish : σ → Except DataError α}
    {node : Node} {a : α} (hstart : P start)
    (h : decodeRecord form field start finish node = .ok a) : ∃ acc, P acc ∧ finish acc = .ok a := by
  have hfinish {acc : σ} (h : (finish acc).mapError (fun cause => Error.data cause none) = .ok a) :
      finish acc = .ok a := by
    cases hf : finish acc with
    | error e =>
      rw [hf] at h
      cases h
    | ok b =>
      rw [hf] at h
      cases h
      rfl
  unfold decodeRecord at h
  split at h
  · obtain ⟨⟨all, acc⟩, h1, h⟩ := of_bind_ok h
    obtain ⟨-, -, h⟩ := of_bind_ok h
    exact ⟨acc, of_decodeEntries_ok hfield hstart h1, hfinish (of_locating_ok h)⟩
  · obtain ⟨acc, h1, h⟩ := of_bind_ok h
    exact ⟨acc, of_decodeValues_ok hfield hstart h1, hfinish h⟩
  · exact absurd h wrongType_ne_ok

end

end Json

/-! ## Loaded pools -/

namespace Pool

theorem ascending_insertBucket {bs : List (SpeciesId × Species)} (h : Ascending bs) (id : SpeciesId)
    (s : Species) : Ascending (insertBucket id s bs) := by
  obtain ⟨l, r, ha, hbs⟩ := exists_around id h
  rcases hbs with rfl | ⟨t, rfl⟩
  · rw [insertBucket_absent ha]
    exact ha.ascending h s
  · rw [insertBucket_present ha]
    have hsub : (l ++ r).Sublist (l ++ (id, t) :: r) :=
      List.Sublist.append_left (List.sublist_cons_self _ _) l
    exact ha.ascending (h.sublist hsub) s

end Pool

theorem ascending_of_decodeBuckets {entries : List (Entry Node)}
    {acc bs : List (SpeciesId × Species)} (hacc : Pool.Ascending acc)
    (h : decodeBuckets acc entries = .ok bs) : Pool.Ascending bs := by
  induction entries generalizing acc with
  | nil =>
    cases h
    exact hacc
  | cons e es ih =>
    obtain ⟨id, -, h⟩ := Json.of_bind_ok h
    obtain ⟨s, -, h⟩ := Json.of_bind_ok h
    exact ih (Pool.ascending_insertBucket hacc id s) h

theorem ascending_of_decodeBucketMap {node : Node} {bs : List (SpeciesId × Species)}
    (h : decodeBucketMap node = .ok bs) : Pool.Ascending bs := by
  unfold decodeBucketMap at h
  split at h
  · obtain ⟨cs, hcs, h⟩ := Json.of_bind_ok h
    have hstep : cs = bs := by
      dsimp only at h
      split at h
      · obtain ⟨-, -, h⟩ := Json.of_bind_ok h
        obtain ⟨-, -, h⟩ := Json.of_bind_ok h
        cases h
        rfl
      · obtain ⟨-, -, h⟩ := Json.of_bind_ok h
        cases h
        rfl
    exact hstep ▸ ascending_of_decodeBuckets List.Pairwise.nil hcs
  · exact absurd h Json.wrongType_ne_ok

theorem Census.ascending_of_decode {node : Node} {c : Census} (h : Census.decode node = .ok c) :
    Pool.Ascending c.buckets := by
  -- the property of the buckets read so far; other fields do not touch it
  have hfield {name : String} {node : Node} {p q : CensusParts}
      (hp : ∀ bs ∈ p.buckets, Pool.Ascending bs) (h : p.field name node = .ok q) :
      ∀ bs ∈ q.buckets, Pool.Ascending bs := by
    unfold CensusParts.field at h
    split at h
    case h_5 =>
      obtain ⟨bs, hbs, h⟩ := Json.of_bind_ok h
      cases h
      rintro cs ⟨⟩
      exact ascending_of_decodeBucketMap hbs
    case h_6 =>
      cases h
      exact hp
    all_goals
      obtain ⟨_, _, h⟩ := Json.of_bind_ok h
      cases h
      exact hp
  obtain ⟨p, hp, hfinish⟩ := Json.of_decodeRecord_ok hfield (fun _ hbs => by cases hbs) h
  obtain ⟨_, _, h⟩ := Json.of_bind_ok hfinish
  obtain ⟨_, _, h⟩ := Json.of_bind_ok h
  obtain ⟨_, _, h⟩ := Json.of_bind_ok h
  obtain ⟨_, _, h⟩ := Json.of_bind_ok h
  obtain ⟨bs, hbs, h⟩ := Json.of_bind_ok h
  cases h
  exact hp bs (Json.of_required_ok hbs)

theorem Archive.ascending_of_parse {text : String} {a : Archive} (h : Archive.parse text = .ok a) :
    Pool.Ascending a.census.buckets := by
  have hfield {name : String} {node : Node} {p q : Archive.Parts}
      (hp : ∀ c ∈ p.census, Pool.Ascending c.buckets) (h : p.field name node = .ok q) :
      ∀ c ∈ q.census, Pool.Ascending c.buckets := by
    unfold Archive.Parts.field at h
    split at h
    · obtain ⟨_, _, h⟩ := Json.of_bind_ok h
      cases h
      exact hp
    · obtain ⟨c, hc, h⟩ := Json.of_bind_ok h
      cases h
      rintro d ⟨⟩
      exact Census.ascending_of_decode hc
    · cases h
      exact hp
  obtain ⟨b, hb, h⟩ := Json.of_bind_ok h
  obtain ⟨-, -, h⟩ := Json.of_bind_ok h
  cases h
  obtain ⟨p, hp, hfinish⟩ := Json.of_decodeRecord_ok hfield (fun _ hc => by cases hc) hb
  obtain ⟨_, _, h⟩ := Json.of_bind_ok hfinish
  obtain ⟨c, hc, h⟩ := Json.of_bind_ok h
  cases h
  exact hp c (Json.of_required_ok hc)

namespace Pool

theorem of_toPool_ok {c : Census} {p : Pool} (h : c.toPool = .ok p) :
    p.buckets = c.buckets ∧ (∀ b ∈ p.buckets, b.2.members ≠ #[]) ∧
      ∀ b ∈ p.buckets, ∀ g ∈ b.2.members, g.species = b.1 := by
  obtain ⟨hnone, rfl⟩ := Census.toPool_eq_ok_iff.mp h
  have hfiled := Census.error?_eq_none_iff.mp hnone
  exact ⟨rfl, fun b hb => (hfiled b hb).inhabited, fun b hb => (hfiled b hb).species_eq⟩

theorem of_load_ok {text : String} {p : Pool} (h : (load text).1 = .ok p) :
    ∃ a, Archive.parse text = .ok a ∧ Ascending a.census.buckets ∧ a.census.toPool = .ok p := by
  unfold load at h
  split at h
  · cases h
  · next a ha =>
    dsimp only at h
    split at h
    · cases h
    · next q hq =>
      cases h
      exact ⟨a, ha, Archive.ascending_of_parse ha, hq⟩

theorem filed_of_load {text : String} {p : Pool} (h : (load text).1 = .ok p) : Filed p.buckets := by
  obtain ⟨a, -, ha, hp⟩ := of_load_ok h
  obtain ⟨hbuckets, hinhabited, hspecies⟩ := of_toPool_ok hp
  exact ⟨hbuckets ▸ ha, hinhabited, hspecies⟩

end Pool

/-! ## Stored pools -/

namespace Archive

theorem decodeTimestamp_reads {node : Node} {t : Timestamp} (ht : t.Valid)
    (h : Json.Reads node (.string (t.text "Z"))) : decodeTimestamp node = .ok t := by
  cases h
  simp only [decodeTimestamp, Json.decodeString, Json.sound, Json.StringToken.flaw?, Option.or_none,
    bind, Except.bind, pure, Except.pure, Timestamp.parse_text ht]

theorem decode_toJson {node : Node} {a : Archive} (h : Json.Reads node a.toJson)
    (ht : a.savedAt.Valid) (hbs : Pool.Ascending a.census.buckets) : decode node = .ok a := by
  have hsaved (p : Parts) {node : Node} (h : Json.Reads node (.string (a.savedAt.text "Z"))) :
      Parts.field "saved_at" node p = .ok { p with savedAt := some a.savedAt } := by
    simp only [Parts.field, decodeTimestamp_reads ht h]
    rfl
  have hpool (p : Parts) {node : Node} (h : Json.Reads node a.census.toJson) :
      Parts.field "pool" node p = .ok { p with census := some a.census } := by
    simp only [Parts.field, Census.decode_toJson h hbs]
    rfl
  have hfinish : Parts.finish ⟨some a.savedAt, some a.census⟩ = .ok a := rfl
  exact Json.decodeRecord_reads Archive.form (.cons (hsaved {}) (.cons (hpool _) (.nil _))) hfinish
    rfl (by decide) h

theorem parse_text {a : Archive} (ht : a.savedAt.Valid) (hbs : Pool.Ascending a.census.buckets) :
    parse a.text = .ok a := by
  obtain ⟨hroot, hrest⟩ := Json.read_text (v := a.toJson)
    ⟨trivial, a.census.toJson_writable, trivial⟩
  simp only [parse, Json.decode, text, decode_toJson hroot ht hbs, hrest, Json.sound, bind,
    Except.bind]
  rfl

end Archive

namespace Pool

theorem load_store_filed {p : Pool} (hp : Filed p.buckets) {t : Timestamp} (ht : t.Valid) :
    (load (p.store t)).1 = .ok p := by
  have hparse := Archive.parse_text (a := ⟨t, p.census⟩) ht hp.ascending
  simp only [load, store, hparse, Census.toPool_census hp]

/-! ## Pools that can be reached -/

/-- The worlds that can be reached from an empty or a loaded pool while nothing breaks off. -/
inductive Attained : World → Prop where
  | fresh {w : World} (h : w.pool = {}) : Attained w
  | loaded {w : World} {text : String} (h : (load text).1 = .ok w.pool) : Attained w
  | step {w v : World} {u : Unit} (op : Operation) (hw : Attained w) (h : op.act w = .ok u v) :
    Attained v

theorem upheld_filed : Upheld (fun p => Filed p.buckets) fun _ _ => True := by
  refine ⟨fun _ _ _ => trivial, fun id => ⟨?_, fun _ _ => trivial⟩, fun g => ⟨?_, fun _ _ => trivial⟩⟩
  · intro w v x hf h
    exact (of_take_ok hf h).1.filed hf
  · intro w v u hf h
    exact (of_put_ok hf h).1.filed

theorem keeps_filed {op : Operation} (h : op.seeds = false) :
    Act.Keeps (fun p => Filed p.buckets) (fun _ _ => True) op.act := by
  cases op with
  | populate | populateWith => cases h
  | put g => exact upheld_filed.put g
  | get id => exact Act.keeps_discard (upheld_filed.take id)
  | pick => exact Act.keeps_discard calm_pick.keeps
  | setTemperature t => exact keeps_setTemperature t fun _ hp => hp
  | flip p => exact Act.keeps_discard (calm_flip p).keeps
  | resetMarks => exact Act.keeps_entering (Act.keeps_modifyPool (f := Pool.resetMarks) fun _ hp => hp)
  | snapshot => exact Act.keeps_discard calm_takeCensus.keeps
  | attend operands => exact (Act.idle_modify (f := ({ · with stack := operands })) fun _ => rfl).keeps
  | process g => exact Program.keeps_run upheld_filed g
  | reset => exact Program.keeps_reset upheld_filed

theorem filed_operation {op : Operation} {w v : World} {u : Unit} (hw : Filed w.pool.buckets)
    (h : op.act w = .ok u v) : Filed v.pool.buckets := by
  cases op with
  | populate n complexity depth temperature =>
    have h : seed n temperature { complexity, maximumDepth := depth } w = .ok u v := h
    exact (of_seed_ok h).filed
  | populateWith s =>
    rcases populateWith_cases s w with ⟨-, hs⟩ | ⟨n, t, g, hok, herror⟩
    · rw [h, reached_ok] at hs
      exact hs.symm ▸ hw
    · cases hs : seed n t g w with
      | ok x v' =>
        rw [hok hs] at h
        cases h
        exact (of_seed_ok hs).filed
      | error f v' =>
        rw [herror hs] at h
        cases h
  | _ => exact (keeps_filed rfl).of_ok hw h

theorem Attained.filed {w : World} (h : Attained w) : Filed w.pool.buckets := by
  induction h with
  | fresh h => rw [h]; exact filed_nil
  | loaded h => exact filed_of_load h
  | step op _ h ih => exact filed_operation ih h

/-- What is stored of a pool that can be reached is loaded again, and nothing of it is lost. -/
theorem load_store {w : World} (h : Attained w) {t : Timestamp} (ht : t.Valid) :
    ∃ q, (load (w.pool.store t)).1 = .ok q ∧ q.census = w.pool.census :=
  ⟨w.pool, load_store_filed h.filed ht, rfl⟩

/-- A creature survives with a chance of minus zero and one of the least positive float. -/
theorem load_store_put : ∃ v,
    (Operation.put (.branch ⟨-0.0, by decide +kernel⟩
      (some (.chop ⟨5e-324, by decide +kernel⟩)) none)).act default = .ok () v ∧
    ∃ q, (load (v.pool.store ⟨1970, 1, 1, 0, 0, 0, 0⟩)).1 = .ok q ∧ q.census = v.pool.census := by
  have hs : (default : World).pool.Sound := sound_empty _
  obtain ⟨u, v, hv⟩ := put_done hs.tallied (by decide) (.branch ⟨-0.0, by decide +kernel⟩
    (some (.chop ⟨5e-324, by decide +kernel⟩)) none)
  refine ⟨v, hv, load_store (.step (.put _) (.fresh rfl) hv) ⟨?_, ?_, ?_, ?_, ?_, ?_, ?_⟩⟩
  all_goals decide

end Pool

end Biotope
