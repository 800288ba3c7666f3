import Mathlib
import Biotope.Pool.Basic

/-!
# Buckets in order

The buckets of a pool are in the order of their identifiers, so an identifier has one
place among them. Whatever is done to one bucket is done at that place and leaves the
buckets on both sides alone.
-/

namespace Biotope

/-! ## Members -/

namespace Species

def bag (s : Species) : Multiset Gene := s.members.toList

theorem isExtinct_iff {s : Species} : s.isExtinct = true ↔ s.members = #[] := by
  simp [isExtinct]

theorem mem_bag {s : Species} {g : Gene} : g ∈ s.bag ↔ g ∈ s.members := by
  simp [bag]

@[simp]
theorem bag_empty : ({} : Species).bag = 0 := rfl

@[simp]
theorem bag_add (s : Species) (g : Gene) : (s.add g).bag = g ::ₘ s.bag := by
  simp only [bag, add, Array.toList_push, ← Multiset.coe_add, Multiset.coe_singleton]
  rw [add_comm]
  rfl

theorem members_add_ne (s : Species) (g : Gene) : (s.add g).members ≠ #[] := by
  simp [add]

@[simp]
theorem card_bag (s : Species) : s.bag.card = s.members.size := by
  simp [bag]

theorem cons_swapRemove (a : Array Gene) (i : Fin a.size) :
    (a.toList : Multiset Gene) = a[i] ::ₘ ((swapRemove a i).toList : Multiset Gene) := by
  have hlast : a.size - 1 < a.size := by have := i.isLt; omega
  have hperm := (Array.swap_perm i.isLt hlast).toList
  have hne : (a.swap i (a.size - 1) i.isLt hlast).toList ≠ [] := by
    intro h
    have h0 := congrArg List.length h
    simp only [Array.length_toList, Array.size_swap, List.length_nil] at h0
    have := i.isLt
    omega
  have hg : (a.swap i (a.size - 1) i.isLt hlast).toList.getLast hne = a[i] := by
    rw [List.getLast_eq_getElem]
    simp
  calc (a.toList : Multiset Gene)
      = ((a.swap i (a.size - 1) i.isLt hlast).toList : Multiset Gene) :=
        Multiset.coe_eq_coe.mpr hperm.symm
    _ = (((swapRemove a i).toList ++ [a[i]] : List Gene) : Multiset Gene) := by
        rw [swapRemove, Array.toList_pop, ← hg, List.dropLast_append_getLast hne]
    _ = a[i] ::ₘ ((swapRemove a i).toList : Multiset Gene) := by
        rw [← Multiset.coe_add, Multiset.coe_singleton, add_comm]
        rfl

theorem select_eq {s : Species} (h : s.members ≠ #[]) (σ : Stream) :
    ∃ g rest τ, s.select σ = (some (g, rest), τ) ∧ s.bag = g ::ₘ rest.bag := by
  have hpos : 0 < s.members.size := Array.size_pos_iff.mpr h
  let i := Stream.below s.members.size hpos σ
  refine ⟨s.members[i.1], ⟨swapRemove s.members i.1⟩, i.2, ?_, cons_swapRemove s.members i.1⟩
  simp only [select, dif_pos hpos]
  rfl

end Species

namespace Pool

/-! ## The place of an identifier -/

def Ascending (bs : List (SpeciesId × Species)) : Prop :=
  bs.Pairwise fun a b => a.1.value < b.1.value

structure Around (id : SpeciesId) (l r : List (SpeciesId × Species)) : Prop where
  before : ∀ b ∈ l, b.1.value < id.value
  behind : ∀ b ∈ r, id.value < b.1.value

namespace Around

variable {id : SpeciesId} {l r : List (SpeciesId × Species)} (h : Around id l r)
include h

theorem ne {b : SpeciesId × Species} (hb : b ∈ l ++ r) : b.1 ≠ id := by
  rintro rfl
  rcases List.mem_append.mp hb with hl | hr
  · exact absurd (h.before b hl) (UInt32.lt_irrefl _)
  · exact absurd (h.behind b hr) (UInt32.lt_irrefl _)

theorem ascending (ha : Ascending (l ++ r)) (s : Species) : Ascending (l ++ (id, s) :: r) := by
  obtain ⟨h1, h2, h3⟩ := List.pairwise_append.mp ha
  refine List.pairwise_append.mpr ⟨h1, List.pairwise_cons.mpr ⟨h.behind, h2⟩, ?_⟩
  intro a ha b hb
  rcases List.mem_cons.mp hb with rfl | hb
  · exact h.before a ha
  · exact h3 a ha b hb

theorem find?_append : (l ++ r).find? (·.1 == id) = none := by
  rw [List.find?_eq_none]
  intro b hb
  simpa using h.ne hb

theorem find?_append_cons (s : Species) :
    (l ++ (id, s) :: r).find? (·.1 == id) = some (id, s) := by
  have hl : l.find? (·.1 == id) = none := by
    rw [List.find?_eq_none]
    intro b hb
    simpa using h.ne (List.mem_append_left r hb)
  rw [List.find?_append, hl]
  simp

theorem filter_append_cons (s : Species) :
    (l ++ (id, s) :: r).filter (·.1 != id) = l ++ r := by
  have hk : (l ++ r).filter (·.1 != id) = l ++ r := by
    rw [List.filter_eq_self]
    intro b hb
    simpa using h.ne hb
  rw [List.filter_append, List.filter_cons_of_neg (by simp), ← List.filter_append, hk]

end Around

theorem insertBucket_append {id : SpeciesId} (s : Species) (bs : List (SpeciesId × Species)) :
    ∀ {l : List (SpeciesId × Species)}, (∀ b ∈ l, b.1.value < id.value) →
      insertBucket id s (l ++ bs) = l ++ insertBucket id s bs
  | [], _ => rfl
  | b :: l, h => by
    have hb := h b (List.mem_cons_self ..)
    have hne : b.1 ≠ id := by rintro rfl; exact UInt32.lt_irrefl _ hb
    have hlt : ¬ id.value < b.1.value := fun h' => UInt32.lt_irrefl _ (UInt32.lt_trans hb h')
    rw [List.cons_append, insertBucket, if_neg hne, if_neg hlt,
      insertBucket_append s bs fun c hc => h c (List.mem_cons_of_mem _ hc)]
    rfl

section
variable {id : SpeciesId} {l r : List (SpeciesId × Species)} (h : Around id l r)
include h

theorem insertBucket_absent (s : Species) : insertBucket id s (l ++ r) = l ++ (id, s) :: r := by
  rw [insertBucket_append s r h.before]
  cases r with
  | nil => rfl
  | cons b r =>
    have hne : b.1 ≠ id := h.ne (by simp)
    rw [insertBucket, if_neg hne, if_pos (h.behind b (List.mem_cons_self ..))]

theorem insertBucket_present (s t : Species) :
    insertBucket id t (l ++ (id, s) :: r) = l ++ (id, t) :: r := by
  rw [insertBucket_append t _ h.before, insertBucket, if_pos rfl]

end

/-- An identifier is missing at its place or has its bucket there. -/
theorem exists_around (id : SpeciesId) : ∀ {bs : List (SpeciesId × Species)}, Ascending bs →
    ∃ l r, Around id l r ∧ (bs = l ++ r ∨ ∃ s, bs = l ++ (id, s) :: r)
  | [], _ => ⟨[], [], ⟨by simp, by simp⟩, .inl rfl⟩
  | b :: bs, h => by
    obtain ⟨hb, hbs⟩ := List.pairwise_cons.mp h
    rcases Nat.lt_trichotomy id.value.toNat b.1.value.toNat with hlt | heq | hgt
    · refine ⟨[], b :: bs, ⟨by simp, fun c hc => ?_⟩, .inl rfl⟩
      rcases List.mem_cons.mp hc with rfl | hc
      · exact hlt
      · exact UInt32.lt_trans hlt (hb c hc)
    · have hid : b.1 = id := by
        obtain ⟨⟨i⟩, s⟩ := b
        obtain ⟨j⟩ := id
        exact congrArg SpeciesId.mk (UInt32.toNat_inj.mp heq).symm
      refine ⟨[], bs, ⟨by simp, fun c hc => hid ▸ hb c hc⟩, .inr ⟨b.2, ?_⟩⟩
      rw [← hid]
      rfl
    · obtain ⟨l, r, ha, hc⟩ := exists_around id hbs
      refine ⟨b :: l, r, ⟨fun c hc => ?_, ha.behind⟩, ?_⟩
      · rcases List.mem_cons.mp hc with rfl | hc
        · exact hgt
        · exact ha.before c hc
      · rcases hc with rfl | ⟨s, rfl⟩
        · exact .inl rfl
        · exact .inr ⟨s, rfl⟩

/-! ## Filing -/

structure Filed (bs : List (SpeciesId × Species)) : Prop where
  ascending : Ascending bs
  inhabited : ∀ b ∈ bs, b.2.members ≠ #[]
  species_eq : ∀ b ∈ bs, ∀ g ∈ b.2.members, g.species = b.1

instance (bs : List (SpeciesId × Species)) : Decidable (Ascending bs) :=
  inferInstanceAs (Decidable (bs.Pairwise fun a b => a.1.value < b.1.value))

instance (bs : List (SpeciesId × Species)) : Decidable (Filed bs) :=
  decidable_of_iff (Ascending bs ∧ ∀ b ∈ bs, b.2.members ≠ #[] ∧ ∀ g ∈ b.2.members, g.species = b.1)
    ⟨fun ⟨h, hb⟩ => ⟨h, fun b hm => (hb b hm).1, fun b hm => (hb b hm).2⟩,
      fun h => ⟨h.ascending, fun b hm => ⟨h.inhabited b hm, h.species_eq b hm⟩⟩⟩

def contents (bs : List (SpeciesId × Species)) : Multiset Gene := (bs.map (·.2.bag)).sum

@[simp]
theorem contents_nil : contents [] = 0 := rfl

@[simp]
theorem contents_cons (b : SpeciesId × Species) (bs : List (SpeciesId × Species)) :
    contents (b :: bs) = b.2.bag + contents bs := by
  simp [contents]

@[simp]
theorem contents_append (l r : List (SpeciesId × Species)) :
    contents (l ++ r) = contents l + contents r := by
  simp [contents]

theorem mem_contents {bs : List (SpeciesId × Species)} {g : Gene} :
    g ∈ contents bs ↔ ∃ b ∈ bs, g ∈ b.2.members := by
  induction bs with
  | nil => simp
  | cons b bs ih => simp [ih, Species.mem_bag]

def held (p : Pool) : Multiset Gene := contents p.buckets

theorem coe_creatureList (p : Pool) : (p.creatureList : Multiset Gene) = p.held := by
  unfold creatureList held
  induction p.buckets with
  | nil => rfl
  | cons b bs ih =>
    rw [List.flatMap_cons, ← Multiset.coe_add, ih, contents_cons]
    rfl

namespace Filed

variable {bs : List (SpeciesId × Species)} (h : Filed bs)
include h

theorem ne_any {b : SpeciesId × Species} (hb : b ∈ bs) : b.1 ≠ .any := by
  obtain ⟨g, hg⟩ := Array.exists_mem_of_ne_empty _ (h.inhabited b hb)
  rw [← h.species_eq b hb g hg]
  exact SpeciesId.ofHash_ne_any _

theorem length_le_card : bs.length ≤ (contents bs).card := by
  have hne := h.inhabited
  clear h
  induction bs with
  | nil => simp
  | cons b bs ih =>
    have := Array.size_pos_iff.mpr (hne b (List.mem_cons_self ..))
    have := ih fun c hc => hne c (List.mem_cons_of_mem _ hc)
    simp only [List.length_cons, contents_cons, Multiset.card_add, Species.card_bag]
    omega

end Filed

theorem filed_nil : Filed [] := ⟨List.Pairwise.nil, by simp, by simp⟩

theorem filed_append_cons {id : SpeciesId} {s : Species} {l r : List (SpeciesId × Species)} :
    Filed (l ++ (id, s) :: r) ↔ Ascending (l ++ (id, s) :: r) ∧ Filed (l ++ r) ∧
      s.members ≠ #[] ∧ ∀ g ∈ s.members, g.species = id := by
  constructor
  · intro h
    have hsub : (l ++ r).Sublist (l ++ (id, s) :: r) :=
      List.Sublist.append_left (List.sublist_cons_self _ _) l
    exact ⟨h.ascending, ⟨h.ascending.sublist hsub, fun b hb => h.inhabited b (hsub.subset hb),
      fun b hb => h.species_eq b (hsub.subset hb)⟩, h.inhabited (id, s) (by simp),
      h.species_eq (id, s) (by simp)⟩
  · rintro ⟨ha, hf, hne, hs⟩
    refine ⟨ha, fun b hb => ?_, fun b hb => ?_⟩
    · rcases List.mem_append.mp hb with hb | hb
      · exact hf.inhabited b (List.mem_append_left _ hb)
      · rcases List.mem_cons.mp hb with rfl | hb
        · exact hne
        · exact hf.inhabited b (List.mem_append_right _ hb)
    · rcases List.mem_append.mp hb with hb | hb
      · exact hf.species_eq b (List.mem_append_left _ hb)
      · rcases List.mem_cons.mp hb with rfl | hb
        · exact hs
        · exact hf.species_eq b (List.mem_append_right _ hb)

end Pool

end Biotope
