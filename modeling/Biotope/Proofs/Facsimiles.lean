import Biotope.Proofs.Replicas
import Biotope.Proofs.Tosses
import Biotope.Proofs.Withdrawals

/-!
# Facsimiles

Where every toss succeeds and there is more raw material than genes to copy, a replica is the
same creature as its source. No species ends on the way, so the temperature stays as it is and
the tosses go on to succeed. Only the count of creatures goes down, by one for each gene.
-/

namespace Biotope

open Act Gene

namespace Pool

/-! ## A bucket with members to spare -/

structure Spared (w v : World) : Prop where
  frame : Frame w v
  temperature : v.pool.temperature = w.pool.temperature
  species : v.pool.species = w.pool.species
  creatures : v.pool.creatures.current.toInt = w.pool.creatures.current.toInt - 1

def Exhausted {α : Type} (a : Act α) (w : World) : Prop :=
  w.pool.creatures.current = Int64.minValue ∧ ∃ v, a w = .error .differenceOverflow v

section
variable {id : SpeciesId} {s : Species} {w : World}

theorem takeFrom_spared (h : 1 < s.members.size) :
    (∃ g v, takeFrom id s w = .ok (some g) v ∧ Spared w v) ∨ Exhausted (takeFrom id s) w := by
  have hne : s.members ≠ #[] := by
    rintro he
    rw [he] at h
    exact absurd h (by decide)
  obtain ⟨g, rest, τ, hselect, hbag⟩ := Species.select_eq hne w.stream
  have hrest : ¬ rest.isExtinct = true := by
    intro hx
    rw [← Species.card_bag, hbag, Multiset.card_cons, bag_eq_zero_iff.mpr hx] at h
    exact absurd h (by decide)
  rw [Exhausted, takeFrom_eq hselect, release]
  by_cases hmin : w.pool.creatures.current = Int64.minValue
  · exact .inr ⟨hmin, _, bind_error (count_error (Gauge.decrement_min hmin))⟩
  · obtain ⟨n, c, hc, hcurrent, -⟩ := Gauge.decrement_ok (Gauge.lt_of_ne_min hmin)
    refine .inl ⟨g, _, (bind_ok (count_ok hc)).trans (by rw [if_neg hrest]; rfl), ?_⟩
    exact ⟨⟨rfl, rfl, rfl, fun h => h⟩, rfl, rfl, hcurrent⟩

/-- A request for a species with two members or more is served, if the count can go down. -/
theorem take_spared (hid : id ≠ .any) (h : 1 < (w.pool.filedUnder id).card) :
    (∃ g v, take id w = .ok (some g) v ∧ Spared w v) ∨ Exhausted (take id) w := by
  cases hs : w.pool.find? id with
  | none =>
    rw [filedUnder, hs] at h
    exact absurd h (by decide)
  | some s =>
    rw [filedUnder, hs, Option.getD_some, Species.card_bag] at h
    rw [Exhausted, take_of_find? hid hs]
    have hserved := @takeFrom_spared id s (notified w) h
    rcases hserved with ⟨g, v, hv, hspared⟩ | ⟨hmin, v, hv⟩
    · obtain ⟨hframe, htemperature, hspecies, hcreatures⟩ := hspared
      rw [notified_pool] at htemperature hspecies hcreatures
      exact .inl ⟨g, v, entering_ok hv, (frame_notified w).trans hframe, htemperature, hspecies,
        hcreatures⟩
    · rw [notified_pool] at hmin
      exact .inr ⟨hmin, _, entering_error hv⟩

theorem request_spared (hd : w.drill = none) (hid : id ≠ .any)
    (h : 1 < (w.pool.filedUnder id).card) :
    (∃ g v, request id w = .ok (some g) v ∧ Spared w v) ∨ Exhausted (request id) w := by
  obtain ⟨u, hcalm, hrequest⟩ := request_eq_take hd hid
  rw [Exhausted, hrequest, ← hcalm.pool]
  rw [← hcalm.pool] at h
  rcases take_spared hid h with ⟨g, v, hv, hframe, ht, hs, hc⟩ | hexhausted
  · rw [hcalm.pool] at ht hs hc
    exact .inl ⟨g, v, hv, hcalm.frame.trans hframe, ht, hs, hc⟩
  · exact .inr hexhausted

end

end Pool

namespace Program

/-! ## Ample raw material -/

/-- Every toss succeeds, and for each of the opcodes there are lone genes and no other creatures,
at least one more than will be wanted. -/
structure Ample (w : World) (os : Multiset Opcode) : Prop where
  drill : w.drill = none
  temperature : w.pool.temperature = .always
  lone : ∀ o ∈ os, ∀ f ∈ w.pool.filedUnder o.species, f.opcode = o ∧ f.size = 1
  spare : ∀ o ∈ os, os.count o < (w.pool.filedUnder o.species).card

structure Paid (w v : World) (n : Nat) : Prop where
  creatures : v.pool.creatures.current.toInt = w.pool.creatures.current.toInt - n
  species : v.pool.species = w.pool.species

theorem Paid.trans {w u v : World} {m n : Nat} (h₁ : Paid w u m) (h₂ : Paid u v n) :
    Paid w v (m + n) := by
  refine ⟨?_, h₂.species.trans h₁.species⟩
  rw [h₂.creatures, h₁.creatures]
  push_cast
  omega

theorem Paid.of_pool_eq {w v : World} (h : v.pool = w.pool) : Paid w v 0 := by
  refine ⟨?_, by rw [h]⟩
  rw [h]
  simp

/-- Out of ample material the act uses up a lone gene for each of the opcodes and ends as described.
It breaks off only where so many creatures cannot be counted out. -/
def Uses {α : Type} (a : Act α) (os : Multiset Opcode) (Q : α → Prop) : Prop :=
  ∀ (w : World) (k : Multiset Opcode), Ample w (os + k) →
    (∃ x v, a w = .ok x v ∧ Q x ∧ Ample v k ∧ Paid w v os.card) ∨
      w.pool.creatures.current.toInt < Int64.minValue.toInt + os.card ∧
        ∃ v, a w = .error .differenceOverflow v

section
variable {α β : Type} {a : Act α} {f : α → Act β} {os os' : Multiset Opcode} {Q : α → Prop}
  {R : β → Prop}

theorem uses_pure {x : α} (h : Q x) : Uses (pure x) 0 Q := by
  intro w k hw
  rw [zero_add] at hw
  exact .inl ⟨x, w, rfl, h, hw, .of_pool_eq rfl⟩

theorem uses_bind (ha : Uses a os Q) (hf : ∀ x, Q x → Uses (f x) os' R) :
    Uses (a >>= f) (os + os') R := by
  intro w k hw
  rw [add_assoc] at hw
  rw [Multiset.card_add]
  rcases ha w (os' + k) hw with ⟨x, u, hx, hq, hu, hpaid⟩ | ⟨hlow, v, hv⟩
  · rcases hf x hq u k hu with ⟨y, v, hy, hr, hv, hpaid'⟩ | ⟨hlow, v, hv⟩
    · exact .inl ⟨y, v, (bind_ok hx).trans hy, hr, hv, hpaid.trans hpaid'⟩
    · have := hpaid.creatures
      refine .inr ⟨?_, v, (bind_ok hx).trans hv⟩
      push_cast
      omega
  · refine .inr ⟨?_, v, bind_error hv⟩
    push_cast
    omega

theorem uses_map (ha : Uses a os Q) {f : α → β} (hf : ∀ x, Q x → R (f x)) :
    Uses (a >>= fun x => pure (f x)) os R := by
  have h := uses_bind ha fun x hx => uses_pure (hf x hx)
  rwa [add_zero] at h

theorem uses_flip : Uses (Pool.flip .always) 0 (· = true) := by
  intro w k hw
  rw [zero_add] at hw
  obtain ⟨v, hv, hcalm⟩ := Pool.flip_certain hw.temperature
  refine .inl ⟨true, v, hv, rfl, ⟨hcalm.frame.drill.trans hw.drill, ?_, ?_, ?_⟩,
    .of_pool_eq hcalm.pool⟩
  · rw [hcalm.pool, hw.temperature]
  · rw [hcalm.pool]
    exact hw.lone
  · rw [hcalm.pool]
    exact hw.spare

theorem Ample.served {o : Opcode} {g : Gene} {w v : World} {k : Multiset Opcode}
    (hw : Ample w ({o} + k)) (hpicked : Pool.Picked o.species w.pool (some g) v.pool)
    (hspared : Pool.Spared w v) : Ample v k := by
  have hothers (o' : Opcode) (ho : o' ≠ o) :
      v.pool.filedUnder o'.species = w.pool.filedUnder o'.species := by
    cases hpicked with
    | served _ hothers => exact Pool.filedUnder_congr (hothers _ (species_injective.ne ho))
  have hserved := hpicked.cons_of_some
  have hmem (o' : Opcode) (ho : o' ∈ k) : o' ∈ {o} + k := Multiset.mem_add.mpr (.inr ho)
  refine ⟨hspared.frame.drill.trans hw.drill, hspared.temperature.trans hw.temperature,
    fun o' hk f hf => hw.lone o' (hmem o' hk) f ?_, fun o' hk => ?_⟩
  · by_cases ho : o' = o
    · subst ho
      rw [hserved]
      exact Multiset.mem_cons_of_mem hf
    · rwa [← hothers o' ho]
  · have hcount := hw.spare o' (hmem o' hk)
    rw [Multiset.count_add] at hcount
    by_cases ho : o' = o
    · subst ho
      rw [hserved, Multiset.count_singleton_self, Multiset.card_cons] at hcount
      omega
    · rw [hothers o' ho]
      omega

theorem uses_supply (o : Opcode) :
    Uses (supply o) {o} fun x => ∃ f, x = some f ∧ f.opcode = o ∧ f.size = 1 := by
  intro w k hw
  have ho : o ∈ {o} + k := Multiset.mem_add.mpr (.inl (Multiset.mem_singleton_self o))
  have hspare := hw.spare o ho
  have hcount : 1 ≤ ({o} + k).count o := Multiset.one_le_count_iff_mem.mpr ho
  unfold supply
  rcases Pool.request_spared hw.drill (species_ne_any o) (by omega) with
    ⟨g, v, hv, hspared⟩ | ⟨hmin, v, hv⟩
  · have hpicked := Pool.of_request_picked (species_ne_any o) hv
    have hlone := hw.lone o ho g (by
      rw [hpicked.cons_of_some]
      exact Multiset.mem_cons_self g _)
    refine .inl ⟨some g, v, (bind_ok hv).trans ?_, ⟨g, rfl, hlone⟩, hw.served hpicked hspared,
      hspared.creatures, hspared.species⟩
    simp only [if_pos hlone.1]
    rfl
  · refine .inr ⟨?_, v, bind_error hv⟩
    rw [hmin, Multiset.card_singleton]
    omega

end

/-! ## Replication out of ample material -/

/-- A leaf takes nothing from its raw material. -/
theorem uses_leaf {g : Gene} (hg : g.isLeaf = true) :
    Uses (supply g.opcode >>= fun f => pure (f.map fun _ => g)) g.opcodes (· = some g) := by
  rw [opcodes_of_isLeaf hg]
  refine uses_map (uses_supply g.opcode) fun x hx => ?_
  obtain ⟨f, rfl, -⟩ := hx
  rfl

/-- A leaf of which there is one only is the creature that was supplied. -/
theorem uses_sole {g : Gene} (hg : g.isLeaf = true)
    (hsole : ∀ f : Gene, f.opcode = g.opcode → f = g) :
    Uses (supply g.opcode) g.opcodes (· = some g) := by
  intro w k hw
  rw [opcodes_of_isLeaf hg] at hw ⊢
  rcases uses_supply g.opcode w k hw with ⟨x, v, hv, hx, h⟩ | h
  · obtain ⟨f, rfl, ho, -⟩ := hx
    exact .inl ⟨_, v, hv, by rw [hsole f ho], h⟩
  · exact .inr h

mutual

theorem uses_replicate : ∀ g, Uses (replicate .always g) g.opcodes (· = some g)
  | .branch q left right => by
    unfold replicate
    rw [opcodes_branch, add_assoc]
    refine uses_bind (uses_supply .branch) fun x hx => ?_
    obtain ⟨f, rfl, -⟩ := hx
    refine uses_bind (uses_replicateSlot left) fun l hl => ?_
    refine uses_map (uses_replicateSlot right) fun r hr => ?_
    rw [hl, hr]
  | .chop q => by
    unfold replicate
    exact uses_leaf (g := .chop q) rfl
  | .copy q => by
    unfold replicate
    exact uses_leaf (g := .copy q) rfl
  | .mutate q => by
    unfold replicate
    exact uses_leaf (g := .mutate q) rfl
  | .merge => by
    unfold replicate
    exact uses_sole (g := .merge) rfl fun f hf => by cases f <;> first | rfl | cases hf
  | .put => by
    unfold replicate
    exact uses_sole (g := .put) rfl fun f hf => by cases f <;> first | rfl | cases hf
  | .get template => by
    unfold replicate
    rw [opcodes_get]
    refine uses_bind (uses_supply .get) fun x hx => ?_
    obtain ⟨f, rfl, -⟩ := hx
    refine uses_map (uses_replicateTemplate template) fun t ht => ?_
    rw [ht]
  | .sequence genes => by
    unfold replicate
    rw [opcodes_sequence]
    refine uses_bind (uses_supply .sequence) fun x hx => ?_
    obtain ⟨f, rfl, -, hsize⟩ := hx
    refine uses_map (uses_replicateAll genes) fun gs hgs => ?_
    rw [itemsOf_eq_nil hsize, hgs, List.nil_append]

theorem uses_replicateSlot : ∀ slot,
    Uses (replicateSlot .always slot) (opcodesSlot slot) (· = slot)
  | none => by
    unfold replicateSlot
    exact uses_pure rfl
  | some child => by
    unfold replicateSlot
    rw [opcodesSlot_some, ← zero_add child.opcodes]
    refine uses_bind uses_flip fun yes hyes => ?_
    simp only [hyes, if_true]
    exact uses_replicate child

theorem uses_replicateTemplate : ∀ template,
    Uses (replicateTemplate .always template) (opcodesSlot template) (· = template)
  | none => by
    unfold replicateTemplate
    exact uses_pure rfl
  | some template => by
    unfold replicateTemplate
    exact uses_replicate template

theorem uses_replicateAll : ∀ items,
    Uses (replicateAll .always items) (opcodesAll items) (· = items)
  | [] => by
    unfold replicateAll
    exact uses_pure rfl
  | item :: items => by
    unfold replicateAll
    rw [opcodesAll_cons, ← zero_add (item.opcodes + _)]
    refine uses_bind uses_flip fun yes hyes => ?_
    simp only [hyes, if_true]
    refine uses_bind (uses_replicate item) fun x hx => ?_
    subst hx
    refine uses_map (uses_replicateAll items) fun gs hgs => ?_
    rw [hgs]

end

/-- Let every toss succeed, and of each opcode of the creature let there be lone genes in the
pool, more than the creature has and no other creatures among them. Then the replica is the
creature itself, the pool has counted out as many creatures as that has genes, and it still has
its species and its temperature. If it cannot count so many out, replication breaks off. -/
theorem replicate_exact (g : Gene) (w : World) (hd : w.drill = none)
    (ht : w.pool.temperature = .always)
    (hlone : ∀ o ∈ g.opcodes, ∀ f ∈ w.pool.filedUnder o.species, f.opcode = o ∧ f.size = 1)
    (hspare : ∀ o ∈ g.opcodes, g.opcodes.count o < (w.pool.filedUnder o.species).card) :
    if Int64.minValue.toInt + g.size ≤ w.pool.creatures.current.toInt then
      ∃ v, replicate .always g w = .ok (some g) v ∧
        v.pool.creatures.current.toInt = w.pool.creatures.current.toInt - g.size ∧
        v.pool.species = w.pool.species ∧ v.pool.temperature = w.pool.temperature
    else ∃ v, replicate .always g w = .error .differenceOverflow v := by
  have hw : Ample w (g.opcodes + 0) := by
    rw [add_zero]
    exact ⟨hd, ht, hlone, hspare⟩
  rcases uses_replicate g w 0 hw with ⟨x, v, hv, rfl, hample, hpaid⟩ | ⟨hlow, v, hv⟩
  · have hcreatures := hpaid.creatures
    have hmin := v.pool.creatures.current.minValue_le_toInt
    rw [card_opcodes] at hcreatures
    rw [if_pos (by omega)]
    exact ⟨v, hv, hcreatures, hpaid.species, hample.temperature.trans ht.symm⟩
  · rw [card_opcodes] at hlow
    rw [if_neg (by omega)]
    exact ⟨v, hv⟩

def granary (k : Nat) (n : Int64) : Pool :=
  { buckets := [Opcode.branch, .mutate, .sequence, .put, .copy, .merge, .get, .chop].map fun o =>
      (o.species, { members := Array.replicate k o.bare })
    temperature := .always
    species := .ofValue 8
    creatures := .ofValue n }

theorem filedUnder_granary (k : Nat) (n : Int64) (o : Opcode) :
    (granary k n).filedUnder o.species = Multiset.replicate k o.bare := by
  have hid (o o' : Opcode) : (o.species == o'.species) = decide (o = o') := by
    rw [Bool.eq_iff_iff]
    simp [species_injective.eq_iff]
  cases o <;> simp [Pool.filedUnder, Pool.find?, granary, hid, Species.bag, Multiset.coe_replicate]

theorem lone_granary {k : Nat} {n : Int64} {o : Opcode} {f : Gene}
    (h : f ∈ (granary k n).filedUnder o.species) : f.opcode = o ∧ f.size = 1 := by
  rw [filedUnder_granary] at h
  obtain rfl := Multiset.eq_of_mem_replicate h
  cases o <;> exact ⟨rfl, rfl⟩

theorem spare_granary {k : Nat} {n : Int64} {g : Gene} (h : ∀ o ∈ g.opcodes, g.opcodes.count o < k)
    (o : Opcode) (ho : o ∈ g.opcodes) :
    g.opcodes.count o < ((granary k n).filedUnder o.species).card := by
  rw [filedUnder_granary, Multiset.card_replicate]
  exact h o ho

/-- A creature of five genes out of thirty-two. -/
theorem replicate_exact_granary :
    let w : World := { pool := granary 4 32, stream := .seeded 3 }
    let g : Gene := .branch .always (some (.sequence [.put, .get (some .put)])) none
    w.drill = none ∧ w.pool.temperature = .always ∧
      (∀ o ∈ g.opcodes, ∀ f ∈ w.pool.filedUnder o.species, f.opcode = o ∧ f.size = 1) ∧
      (∀ o ∈ g.opcodes, g.opcodes.count o < (w.pool.filedUnder o.species).card) ∧
      ∃ v, replicate .always g w = .ok (some g) v ∧ v.pool.creatures.current.toInt = 27 ∧
        v.pool.species = .ofValue 8 ∧ v.pool.temperature = .always := by
  intro w g
  have hlone : ∀ o ∈ g.opcodes, ∀ f ∈ w.pool.filedUnder o.species, f.opcode = o ∧ f.size = 1 :=
    fun o _ f => lone_granary
  have hspare : ∀ o ∈ g.opcodes, g.opcodes.count o < (w.pool.filedUnder o.species).card :=
    spare_granary (by decide)
  have hexact := replicate_exact g w rfl rfl hlone hspare
  rw [if_pos (by decide)] at hexact
  exact ⟨rfl, rfl, hlone, hspare, hexact⟩

/-- With the count at its least there is no replica, be there ever so much to make it of. -/
theorem replicate_exhausted :
    let w : World := { pool := granary 2 Int64.minValue, stream := .seeded 3 }
    w.drill = none ∧ w.pool.temperature = .always ∧
      (∀ o ∈ Gene.put.opcodes, ∀ f ∈ w.pool.filedUnder o.species, f.opcode = o ∧ f.size = 1) ∧
      (∀ o ∈ Gene.put.opcodes, Gene.put.opcodes.count o < (w.pool.filedUnder o.species).card) ∧
      ∃ v, replicate .always .put w = .error .differenceOverflow v := by
  intro w
  have hlone : ∀ o ∈ Gene.put.opcodes, ∀ f ∈ w.pool.filedUnder o.species,
      f.opcode = o ∧ f.size = 1 := fun o _ f => lone_granary
  have hspare : ∀ o ∈ Gene.put.opcodes,
      Gene.put.opcodes.count o < (w.pool.filedUnder o.species).card := spare_granary (by decide)
  refine ⟨rfl, rfl, hlone, hspare, ?_⟩
  have hw : Ample w (Gene.put.opcodes + 0) := by
    rw [add_zero]
    exact ⟨rfl, rfl, hlone, hspare⟩
  rcases uses_replicate .put w 0 hw with ⟨x, v, -, -, -, hpaid⟩ | ⟨-, v, hv⟩
  · exfalso
    have hcreatures := hpaid.creatures
    have hmin := v.pool.creatures.current.minValue_le_toInt
    have hstart : w.pool.creatures.current.toInt = Int64.minValue.toInt := rfl
    rw [opcodes_put, Multiset.card_singleton, hstart] at hcreatures
    omega
  · exact ⟨v, hv⟩

end Program

end Biotope
