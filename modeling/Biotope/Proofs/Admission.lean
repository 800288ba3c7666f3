import Biotope.Pool.Survey
import Biotope.Proofs.Buckets

/-!
# Admission of censuses

A pool is built from a census exactly if each bucket is filed, and the pool has all of the
census. A refusal is about the first bucket that offends, in the order of the identifiers.
-/

namespace Biotope

open Pool (Ascending takeCensus)

structure WellFiled (b : SpeciesId × Species) : Prop where
  inhabited : b.2.members ≠ #[]
  species_eq : ∀ g ∈ b.2.members, g.species = b.1

/-- What is wrong with a bucket. The stray that is named is the first one. -/
inductive Offends : SpeciesId × Species → CensusError → Prop where
  | vacant {id : SpeciesId} {s : Species} (h : s.members = #[]) : Offends (id, s) (.vacant id)
  | misfiled {id : SpeciesId} {s : Species} {front rest : List Gene} {stray : Gene}
      (h : s.members.toList = front ++ stray :: rest) (hfront : ∀ g ∈ front, g.species = id)
      (hstray : stray.species ≠ id) : Offends (id, s) (.misfiled stray.species id)

theorem Pool.filed_iff {bs : List (SpeciesId × Species)} :
    Filed bs ↔ Ascending bs ∧ ∀ b ∈ bs, WellFiled b :=
  ⟨fun h => ⟨h.ascending, fun b hb => ⟨h.inhabited b hb, h.species_eq b hb⟩⟩,
    fun ⟨h, hb⟩ => ⟨h, fun b hm => (hb b hm).inhabited, fun b hm => (hb b hm).species_eq⟩⟩

theorem WellFiled.ne_any {b : SpeciesId × Species} (h : WellFiled b) : b.1 ≠ .any := by
  obtain ⟨g, hg⟩ := Array.exists_mem_of_ne_empty _ h.inhabited
  rw [← h.species_eq g hg]
  exact SpeciesId.ofHash_ne_any _

/-! ## Finding the first offence -/

/-- The buckets in front of one are those with a smaller identifier. -/
theorem Pool.mem_front_iff {l r : List (SpeciesId × Species)} {b d : SpeciesId × Species}
    (h : Ascending (l ++ b :: r)) : d ∈ l ↔ d ∈ l ++ b :: r ∧ d.1.value < b.1.value := by
  obtain ⟨-, hr, hl⟩ := List.pairwise_append.mp h
  constructor
  · intro hd
    exact ⟨List.mem_append_left _ hd, hl d hd b (List.mem_cons_self ..)⟩
  · rintro ⟨hd, hlt⟩
    rcases List.mem_append.mp hd with hd | hd
    · exact hd
    · rcases List.mem_cons.mp hd with rfl | hd
      · exact absurd hlt (UInt32.lt_irrefl _)
      · exact absurd ((List.pairwise_cons.mp hr).1 d hd) (UInt32.lt_asymm hlt)

namespace Census

theorem bucketError?_eq_none_iff {b : SpeciesId × Species} :
    bucketError? b.1 b.2 = none ↔ WellFiled b := by
  unfold bucketError?
  constructor
  · intro h
    split at h
    · cases h
    · rename_i hinhabited
      rw [Option.map_eq_none_iff, List.find?_eq_none] at h
      refine ⟨fun hempty => hinhabited (Species.isExtinct_iff.mpr hempty), fun g hg => ?_⟩
      simpa using h g (Array.mem_toList_iff.mpr hg)
  · intro h
    have hinhabited : ¬ b.2.isExtinct = true := fun he => h.inhabited (Species.isExtinct_iff.mp he)
    rw [if_neg hinhabited, Option.map_eq_none_iff, List.find?_eq_none]
    intro g hg
    simpa using h.species_eq g (Array.mem_toList_iff.mp hg)

theorem bucketError?_eq_some_iff {b : SpeciesId × Species} {e : CensusError} :
    bucketError? b.1 b.2 = some e ↔ Offends b e := by
  unfold bucketError?
  constructor
  · intro h
    split at h
    · rename_i hempty
      cases h
      exact .vacant (Species.isExtinct_iff.mp hempty)
    · obtain ⟨stray, hfind, rfl⟩ := Option.map_eq_some_iff.mp h
      obtain ⟨hstray, front, rest, hsplit, hfront⟩ := List.find?_eq_some_iff_append.mp hfind
      exact .misfiled hsplit (by simpa using hfront) (by simpa using hstray)
  · intro h
    cases h with
    | vacant h => rw [if_pos (Species.isExtinct_iff.mpr h)]
    | @misfiled id s front rest stray h hfront hstray =>
      have hinhabited : ¬ s.isExtinct = true := by
        intro he
        rw [Species.isExtinct_iff.mp he] at h
        simp at h
      have hfind : s.members.toList.find? (·.species != id) = some stray := by
        rw [List.find?_eq_some_iff_append]
        exact ⟨by simpa using hstray, front, rest, h, by simpa using hfront⟩
      rw [if_neg hinhabited, hfind]
      rfl

variable {c : Census}

theorem error?_eq_none_iff : c.error? = none ↔ ∀ b ∈ c.buckets, WellFiled b := by
  rw [error?, List.findSome?_eq_none_iff]
  exact forall₂_congr fun _ _ => bucketError?_eq_none_iff

theorem error?_eq_some_iff (hc : Ascending c.buckets) {e : CensusError} :
    c.error? = some e ↔ ∃ b ∈ c.buckets, Offends b e ∧
      ∀ d ∈ c.buckets, d.1.value < b.1.value → WellFiled d := by
  rw [error?, List.findSome?_eq_some_iff]
  constructor
  · rintro ⟨l, b, r, hsplit, hb, hl⟩
    rw [hsplit] at hc ⊢
    refine ⟨b, List.mem_append_right _ (List.mem_cons_self ..), bucketError?_eq_some_iff.mp hb, ?_⟩
    intro d hd hlt
    exact bucketError?_eq_none_iff.mp (hl d ((Pool.mem_front_iff hc).mpr ⟨hd, hlt⟩))
  · rintro ⟨b, hb, he, hsmaller⟩
    obtain ⟨l, r, hsplit⟩ := List.append_of_mem hb
    rw [hsplit] at hc hsmaller
    refine ⟨l, b, r, hsplit, bucketError?_eq_some_iff.mpr he, ?_⟩
    intro d hd
    obtain ⟨hmem, hlt⟩ := (Pool.mem_front_iff hc).mp hd
    exact bucketError?_eq_none_iff.mpr (hsmaller d hmem hlt)

theorem toPool_eq_ok_iff {p : Pool} : c.toPool = .ok p ↔ c.error? = none ∧ p.census = c := by
  unfold toPool
  cases he : c.error? with
  | some e => simp
  | none =>
    constructor
    · intro h
      cases h
      exact ⟨rfl, rfl⟩
    · rintro ⟨-, rfl⟩
      rfl

theorem toPool_eq_error_iff {e : CensusError} : c.toPool = .error e ↔ c.error? = some e := by
  unfold toPool
  cases c.error? <;> simp

end Census

/-! ## Admission -/

namespace Pool

theorem takeCensus_adopt (w : World) (p : Pool) :
    takeCensus (w.adopt p) = .ok p.census (w.adopt p) := rfl

/-- A census is admitted exactly if all its buckets are filed, and is what the next census
finds. It is refused for the offending bucket with the smallest identifier. -/
theorem toPool_admits (c : Census) (hc : Ascending c.buckets) :
    ((∃ p, c.toPool = .ok p) ↔ ∀ b ∈ c.buckets, WellFiled b) ∧
    (∀ b ∈ c.buckets, b.1 = .any → ∃ e, c.toPool = .error e) ∧
    (∀ p, c.toPool = .ok p → ∀ w : World, takeCensus (w.adopt p) = .ok c (w.adopt p)) ∧
    ∀ e, c.toPool = .error e ↔ ∃ b ∈ c.buckets, Offends b e ∧
      ∀ d ∈ c.buckets, d.1.value < b.1.value → WellFiled d := by
  have hadmitted : (∃ p, c.toPool = .ok p) ↔ ∀ b ∈ c.buckets, WellFiled b := by
    rw [← Census.error?_eq_none_iff]
    constructor
    · rintro ⟨p, hp⟩
      exact (Census.toPool_eq_ok_iff.mp hp).1
    · intro h
      exact ⟨⟨c.buckets, c.temperature, c.genes, c.species, c.creatures⟩,
        Census.toPool_eq_ok_iff.mpr ⟨h, rfl⟩⟩
  refine ⟨hadmitted, ?_, ?_, ?_⟩
  · intro b hb hany
    cases h : c.toPool with
    | ok p => exact absurd hany (hadmitted.mp ⟨p, h⟩ b hb).ne_any
    | error e => exact ⟨e, rfl⟩
  · intro p hp w
    rw [takeCensus_adopt, (Census.toPool_eq_ok_iff.mp hp).2]
  · intro e
    rw [Census.toPool_eq_error_iff, Census.error?_eq_some_iff hc]

/-- Of a stray and a vacant bucket behind it the stray is named. -/
theorem toPool_admits_stray :
    let stray : SpeciesId × Species := (Gene.put.species, ⟨#[.put, .merge]⟩)
    let c : Census := ⟨.even, {}, {}, {}, [stray, (⟨0xFFFFFFFF⟩, {})]⟩
    Ascending c.buckets ∧ c.toPool = .error (.misfiled Gene.merge.species stray.1) ∧
      (¬ ∀ b ∈ c.buckets, WellFiled b) ∧
        ∃ b ∈ c.buckets, Offends b (.misfiled Gene.merge.species stray.1) ∧
          ∀ d ∈ c.buckets, d.1.value < b.1.value → WellFiled d := by
  intro stray c
  have hc : Ascending c.buckets := by
    have hlt : Gene.put.species.value < 0xFFFFFFFF := by decide +kernel
    simpa [Ascending, c, stray] using hlt
  obtain ⟨hadmitted, -, -, hrefused⟩ := toPool_admits c hc
  have he : c.toPool = .error (.misfiled Gene.merge.species stray.1) :=
    Census.toPool_eq_error_iff.mpr (by decide +kernel)
  refine ⟨hc, he, ?_, (hrefused _).mp he⟩
  rw [← hadmitted]
  rintro ⟨p, hp⟩
  rw [he] at hp
  cases hp

end Pool

/-! ## What a refusal tells -/

namespace SpeciesId

def hexDigits : List Char := "0123456789abcdef".toList

def readHex (cs : List Char) : Nat := cs.foldl (fun n c => 16 * n + hexDigits.idxOf c) 0

theorem idxOf_digitChar : ∀ d < 16, hexDigits.idxOf (Nat.digitChar d) = d := by decide

theorem readHex_append (cs : List Char) (c : Char) :
    readHex (cs ++ [c]) = 16 * readHex cs + hexDigits.idxOf c := by
  rw [readHex, List.foldl_append]
  rfl

theorem readHex_toDigits (n : Nat) : readHex (Nat.toDigits 16 n) = n := by
  induction n using Nat.strong_induction_on with
  | _ n ih =>
    rw [Nat.toDigits_eq_if (by decide)]
    split
    · rename_i hn
      rw [← List.nil_append [n.digitChar], readHex_append, idxOf_digitChar n hn]
      exact Nat.zero_add n
    · rename_i hn
      rw [readHex_append, ih (n / 16) (by omega), idxOf_digitChar _ (Nat.mod_lt _ (by decide))]
      exact Nat.div_add_mod n 16

theorem readHex_zeros (k : Nat) (cs : List Char) :
    readHex (List.replicate k '0' ++ cs) = readHex cs := by
  induction k with
  | zero => rfl
  | succ k ih => exact ih

theorem readHex_text (id : SpeciesId) : readHex id.text.toList = id.value.toNat := by
  rw [text, String.toList_ofList, readHex_zeros, readHex_toDigits]

theorem length_text (id : SpeciesId) : id.text.toList.length = 8 := by
  have hlt : id.value.toNat < 16 ^ 8 := id.value.toNat_lt
  have hle := (Nat.length_toDigits_le_iff (by decide) (by decide)).mpr hlt
  rw [text, String.toList_ofList, List.length_append, List.length_replicate]
  omega

theorem text_injective : Function.Injective text := by
  intro a b h
  have hvalue : a.value.toNat = b.value.toNat := by rw [← readHex_text, h, readHex_text]
  cases a
  cases b
  exact congrArg _ (UInt32.toNat.inj hvalue)

end SpeciesId

theorem SpeciesId.text_append_inj {a b : SpeciesId} {u v : List Char}
    (h : a.text.toList ++ u = b.text.toList ++ v) : a = b ∧ u = v := by
  obtain ⟨htext, hrest⟩ := List.append_inj h (a.length_text.trans b.length_text.symm)
  exact ⟨text_injective (String.toList_inj.mp htext), hrest⟩

theorem CensusError.toList_vacant (a : SpeciesId) : (vacant a).message.toList =
    "Species ".toList ++ (a.text.toList ++ " has no members".toList) := by
  show ("Species " ++ a.text ++ " has no members").toList = _
  rw [String.toList_append, String.toList_append, List.append_assoc]

theorem CensusError.toList_misfiled (r a : SpeciesId) : (misfiled r a).message.toList =
    "Creature of species ".toList ++
      (r.text.toList ++ (" stored under ".toList ++ a.text.toList)) := by
  show ("Creature of species " ++ r.text ++ " stored under " ++ a.text).toList = _
  rw [String.toList_append, String.toList_append, String.toList_append, List.append_assoc,
    List.append_assoc]

/-- Different refusals read differently. -/
theorem CensusError.message_injective : Function.Injective CensusError.message := by
  have hkind (a r b : SpeciesId) : (vacant a).message ≠ (misfiled r b).message := by
    intro h
    rw [← String.toList_inj, toList_vacant, toList_misfiled] at h
    simp at h
  intro e f h
  cases e with
  | vacant a =>
    cases f with
    | vacant b =>
      rw [← String.toList_inj, toList_vacant, toList_vacant] at h
      rw [(SpeciesId.text_append_inj (List.append_cancel_left h)).1]
    | misfiled s b => exact absurd h (hkind a s b)
  | misfiled r a =>
    cases f with
    | vacant b => exact absurd h.symm (hkind b r a)
    | misfiled s b =>
      rw [← String.toList_inj, toList_misfiled, toList_misfiled] at h
      obtain ⟨rfl, hid⟩ := SpeciesId.text_append_inj (List.append_cancel_left h)
      rw [SpeciesId.text_injective (String.toList_inj.mp (List.append_cancel_left hid))]

end Biotope
