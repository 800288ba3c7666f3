import Biotope.Program.Mutation
import Biotope.Proofs.Facsimiles
import Biotope.Proofs.Strippings

/-!
# Closed gates

Where no toss can succeed, pruning and mutation leave the creature and the pool as they are. A copy
does without tosses for its root and for templates, so it is made up of these alone. How much of
it there is depends on nothing but the numbers of lone genes in stock.
-/

namespace Biotope

open Act Gene

namespace Program

/-! ## Acts behind a closed gate -/

def Closed (p : Probability) (w : World) : Prop :=
  (p == .never) = true ∨ (w.pool.temperature == .never) = true

def Rests {α : Type} (p : Probability) (a : Act α) (x : α) : Prop :=
  ∀ w, Closed p w → ∃ v, a w = .ok x v ∧ Undisturbed w v

section
variable {α β : Type} {p : Probability} {a b : Act α} {f : α → Act β} {x : α} {y : β}

theorem rests_pure (x : α) : Rests p (pure x) x := fun w _ => ⟨w, rfl, .refl w⟩

theorem rests_bind (ha : Rests p a x) (hf : Rests p (f x) y) : Rests p (a >>= f) y := by
  intro w hw
  obtain ⟨u, hu, hcalm⟩ := ha w hw
  have hclosed : Closed p u := by
    unfold Closed
    rw [hcalm.pool]
    exact hw
  obtain ⟨v, hv, hcalm'⟩ := hf u hclosed
  exact ⟨v, (bind_ok hu).trans hv, hcalm.trans hcalm'⟩

theorem rests_gate (hb : Rests p b x) :
    Rests p (Pool.flip p >>= fun yes => if yes then a else b) x := by
  have hflip : Rests p (Pool.flip p) false := fun w hw => Pool.flip_never hw
  exact rests_bind hflip hb

end

section
variable (p : Probability)

mutual

theorem rests_prune : ∀ g, Rests p (prune p g) g
  | .branch q left right => by
    unfold prune
    exact rests_bind (rests_pruneSlot left) (rests_bind (rests_pruneSlot right) (rests_pure _))
  | .sequence genes => by
    unfold prune
    exact rests_bind (rests_pruneAll genes) (rests_pure _)
  | .get _ | .chop _ | .copy _ | .merge | .mutate _ | .put => by
    unfold prune
    exact rests_pure _

theorem rests_pruneSlot : ∀ slot, Rests p (pruneSlot p slot) slot
  | none => by
    unfold pruneSlot
    exact rests_pure _
  | some child => by
    unfold pruneSlot
    exact rests_bind (rests_prune child) (rests_gate (rests_pure _))

theorem rests_pruneAll : ∀ items, Rests p (pruneAll p items) items
  | [] => by
    unfold pruneAll
    exact rests_pure _
  | item :: items => by
    unfold pruneAll
    exact rests_bind (rests_prune item)
      (rests_gate (rests_bind (rests_pruneAll items) (rests_pure _)))

end

theorem rests_redraw (q : Probability) : Rests p (redraw p q) q := rests_gate (rests_pure q)

theorem rests_relocate (genes : List Gene) : Rests p (relocate p genes) genes := by
  unfold relocate
  split
  · exact rests_gate (rests_pure genes)
  · exact rests_pure genes

mutual

theorem rests_mutate : ∀ g, Rests p (mutate p g) g
  | .branch q left right => by
    unfold mutate
    exact rests_bind (rests_mutateSlot left) (rests_bind (rests_mutateSlot right)
      (rests_bind (rests_redraw p q) (rests_gate (rests_pure _))))
  | .chop q | .mutate q => by
    unfold mutate
    exact rests_bind (rests_redraw p q) (rests_pure _)
  | .get template => by
    unfold mutate
    exact rests_bind (rests_mutateSlot template) (rests_pure _)
  | .sequence genes => by
    unfold mutate
    exact rests_bind (rests_mutateAll genes) (rests_bind (rests_relocate p genes) (rests_pure _))
  | .copy _ | .merge | .put => by
    unfold mutate
    exact rests_pure _

theorem rests_mutateSlot : ∀ slot, Rests p (mutateSlot p slot) slot
  | none => by
    unfold mutateSlot
    exact rests_pure _
  | some child => by
    unfold mutateSlot
    exact rests_bind (rests_mutate child) (rests_pure _)

theorem rests_mutateAll : ∀ items, Rests p (mutateAll p items) items
  | [] => by
    unfold mutateAll
    exact rests_pure _
  | item :: items => by
    unfold mutateAll
    exact rests_bind (rests_mutate item) (rests_bind (rests_mutateAll items) (rests_pure _))

end

/-- No child is copied without a toss. -/
theorem rests_replicateSlot : ∀ slot, Rests p (replicateSlot p slot) none
  | none => by
    unfold replicateSlot
    exact rests_pure _
  | some _ => by
    unfold replicateSlot
    exact rests_gate (rests_pure _)

theorem rests_replicateAll : ∀ items, Rests p (replicateAll p items) []
  | [] => by
    unfold replicateAll
    exact rests_pure _
  | _ :: items => by
    unfold replicateAll
    exact rests_gate (rests_replicateAll items)

end

/-! ## The stock of lone genes -/

def spend (stock : Opcode → Nat) (os : Multiset Opcode) : Opcode → Nat := fun o => stock o - os.count o

/-- The number of species that end when the opcodes are taken out of the stock. -/
def ends (stock : Opcode → Nat) (os : Multiset Opcode) : Nat :=
  (os.toFinset.filter fun o => os.count o = stock o).card

structure Stocked (w : World) (stock : Opcode → Nat) : Prop where
  drill : w.drill = none
  bare : Bare w.pool
  card : ∀ o, (w.pool.filedUnder o.species).card = stock o

section
variable {stock : Opcode → Nat} {os os' : Multiset Opcode}

theorem spend_add (stock : Opcode → Nat) (os os' : Multiset Opcode) :
    spend stock (os + os') = spend (spend stock os) os' := by
  funext o
  rw [spend, spend, spend, Multiset.count_add, Nat.sub_sub]

theorem ends_singleton (stock : Opcode → Nat) (o : Opcode) :
    ends stock {o} = if stock o = 1 then 1 else 0 := by
  rw [ends, Multiset.toFinset_singleton, Finset.filter_singleton, Multiset.count_singleton_self]
  by_cases h : stock o = 1
  · rw [if_pos h.symm, if_pos h, Finset.card_singleton]
  · rw [if_neg (Ne.symm h), if_neg h, Finset.card_empty]

/-- A species that has ended does not end once more. -/
theorem ends_add (h : ∀ o, os.count o ≤ stock o) (h' : ∀ o, os'.count o ≤ spend stock os o) :
    ends stock (os + os') = ends stock os + ends (spend stock os) os' := by
  unfold spend at h'
  have hunion : ((os + os').toFinset.filter fun o => (os + os').count o = stock o) =
      (os.toFinset.filter fun o => os.count o = stock o) ∪
        os'.toFinset.filter fun o => os'.count o = stock o - os.count o := by
    ext o
    have := h o
    have := h' o
    simp only [Finset.mem_union, Finset.mem_filter, Multiset.mem_toFinset, ← Multiset.count_pos,
      Multiset.count_add]
    omega
  have hdisjoint : Disjoint (os.toFinset.filter fun o => os.count o = stock o)
      (os'.toFinset.filter fun o => os'.count o = stock o - os.count o) := by
    refine Finset.disjoint_left.mpr fun o ho ho' => ?_
    have := h' o
    simp only [Finset.mem_filter, Multiset.mem_toFinset, ← Multiset.count_pos] at ho ho'
    omega
  rw [ends, hunion, Finset.card_union_of_disjoint hdisjoint]
  rfl

theorem Stocked.spent {w v : World} (hw : Stocked w stock) (h : Spent w.pool v.pool os)
    (hd : v.drill = none) : Stocked v (spend stock os) := by
  refine ⟨hd, h.bare hw.bare, fun o => ?_⟩
  obtain ⟨lost, hlost, hcard⟩ := h.taken o
  have hstock := hw.card o
  rw [hlost, Multiset.card_add, hcard] at hstock
  rw [spend, ← hstock, Nat.add_sub_cancel_left]

end

/-! ## Acts that draw on the stock -/

/-- Out of the stock the act takes a lone gene for each of the opcodes, and ends as described. It
breaks off just if the gauges cannot count out the genes and the species that end with them. -/
structure Takes {α : Type} (a : Act α) (stock : Opcode → Nat) (os : Multiset Opcode)
    (Q : α → Prop) : Prop where
  fits : ∀ o, os.count o ≤ stock o
  run : ∀ w, Stocked w stock →
    (Pool.Affords w.pool os.card (ends stock os) ∧ ∃ x v, a w = .ok x v ∧ Q x ∧
        Stocked v (spend stock os) ∧ Pool.Counted w.pool v.pool os.card (ends stock os)) ∨
      ¬ Pool.Affords w.pool os.card (ends stock os) ∧ ∃ v, a w = .error .differenceOverflow v

section
variable {α β : Type} {a : Act α} {f : α → Act β} {stock : Opcode → Nat}
  {os os' : Multiset Opcode} {Q : α → Prop} {R : β → Prop}

theorem takes_nothing (h : ∀ w, Stocked w stock → ∃ x v, a w = .ok x v ∧ Q x ∧ Undisturbed w v) :
    Takes a stock 0 Q := by
  refine ⟨fun o => Nat.zero_le _, fun w hw => ?_⟩
  obtain ⟨x, v, hv, hx, hcalm⟩ := h w hw
  have hstocked := hw.spent (.of_eq hcalm.pool) (hcalm.frame.drill.trans hw.drill)
  exact .inl ⟨Pool.affords_zero w.pool, x, v, hv, hx, hstocked, .of_eq hcalm.pool⟩

theorem Rests.takes {p : Probability} {x : α} (h : Rests p a x) (hp : (p == .never) = true) :
    Takes a stock 0 (· = x) := takes_nothing fun w _ =>
  let ⟨v, hv, hcalm⟩ := h w (.inl hp)
  ⟨x, v, hv, rfl, hcalm⟩

theorem takes_bind (ha : Takes a stock os Q) (hf : ∀ x, Q x → Takes (f x) (spend stock os) os' R)
    (hx : ∃ x, Q x) : Takes (a >>= f) stock (os + os') R := by
  obtain ⟨x, hx⟩ := hx
  have hfits := (hf x hx).fits
  refine ⟨fun o => ?_, fun w hw => ?_⟩
  · have := ha.fits o
    have := hfits o
    unfold spend at this
    rw [Multiset.count_add]
    omega
  · rw [Multiset.card_add, ends_add ha.fits hfits, spend_add]
    rcases ha.run w hw with ⟨-, y, u, hy, hq, hu, hcounted⟩ | ⟨hafford, u, hu⟩
    · rw [hcounted.affords_iff]
      rcases (hf y hq).run u hu with ⟨hafford, z, v, hv, hr, hstocked, hcounted'⟩ | ⟨hafford, v, hv⟩
      · exact .inl ⟨hafford, z, v, (bind_ok hy).trans hv, hr, hstocked, hcounted.trans hcounted'⟩
      · exact .inr ⟨hafford, v, (bind_ok hy).trans hv⟩
    · exact .inr ⟨fun h => hafford h.of_add, u, bind_error hu⟩

/-- What comes after it behind a closed gate does not matter to the stock. -/
theorem takes_then {p : Probability} (hp : (p == .never) = true) {y : β} (ha : Takes a stock os Q)
    (hx : ∃ x, Q x) (hf : ∀ x, Q x → Rests p (f x) y) : Takes (a >>= f) stock os (· = y) := by
  have h : Takes (a >>= f) stock (os + 0) (· = y) :=
    takes_bind ha (fun x hx => (hf x hx).takes hp) hx
  rwa [add_zero] at h

end

section
variable {stock : Opcode → Nat} {o : Opcode}

theorem takes_missed (h : stock o = 0) : Takes (supply o) stock 0 (· = none) := by
  refine takes_nothing fun w hw => ?_
  have hnone : w.pool.filedUnder o.species = 0 := by
    rw [← Multiset.card_eq_zero, hw.card, h]
  obtain ⟨v, hv, hcalm⟩ := Pool.request_missed hw.drill (species_ne_any o) hnone
  exact ⟨none, v, bind_ok hv, rfl, hcalm⟩

theorem takes_supply (h : stock o ≠ 0) :
    Takes (supply o) stock {o} fun x => ∃ f, x = some f ∧ f.opcode = o ∧ f.size = 1 := by
  refine ⟨fun o' => ?_, fun w hw => ?_⟩
  · by_cases ho : o' = o
    · rw [ho, Multiset.count_singleton_self]
      exact Nat.one_le_iff_ne_zero.mpr h
    · rw [Multiset.count_singleton, if_neg ho]
      exact Nat.zero_le _
  · have hne : w.pool.filedUnder o.species ≠ 0 := by
      rwa [Ne, ← Multiset.card_eq_zero, hw.card]
    have hrequest := Pool.request_withdraws hw.drill (species_ne_any o) hne
    rw [hw.card, ← ends_singleton] at hrequest
    rw [Multiset.card_singleton]
    rcases hrequest with ⟨hafford, f, v, hv, hcounted, hframe⟩ | ⟨hafford, v, hv⟩
    · have hlone := hw.bare o f (mem_of_request hv)
      have hsupply : supply o w = .ok (some f) v := by
        unfold supply
        refine (bind_ok hv).trans ?_
        simp only [if_pos hlone.1]
        rfl
      exact .inl ⟨hafford, some f, v, hsupply, ⟨f, rfl, hlone⟩,
        hw.spent (spent_of_supply_some hsupply) (hframe.drill.trans hw.drill), hcounted⟩
    · exact .inr ⟨hafford, v, bind_error hv⟩

end

/-! ## Copies without tosses -/

mutual

/-- The root by itself, as far as the stock goes. Below a `Get` comes what there is of its template
in the same way, with one `Get` less in stock. -/
def stem (stock : Opcode → Nat) : Gene → Option Gene
  | .get template =>
    if stock .get = 0 then none else some (.get (stemSlot (spend stock {.get}) template))
  | g => if stock g.opcode = 0 then none else some g.strip

def stemSlot (stock : Opcode → Nat) : Option Gene → Option Gene
  | none => none
  | some g => stem stock g

end

theorem stem_of_ne_get {g : Gene} (hg : g.opcode ≠ .get) (stock : Opcode → Nat) :
    stem stock g = if stock g.opcode = 0 then none else some g.strip := by
  cases g with
  | get => exact absurd rfl hg
  | _ => rw [stem]; rintro _ ⟨⟩

theorem opcodes_strip {g : Gene} (hg : g.opcode ≠ .get) : g.strip.opcodes = {g.opcode} := by
  cases g with
  | get => exact absurd rfl hg
  | _ => rfl

section
variable {p : Probability} (hp : (p == .never) = true) {stock : Opcode → Nat}
include hp

/-- A creature that is no `Get` is copied without what is below it. -/
theorem takes_root {g : Gene} {o : Opcode} (hg : g.opcode = o) (ho : o ≠ .get)
    {f : Option Gene → Act (Option Gene)} (hnone : Rests p (f none) none)
    (hsome : ∀ fresh : Gene, fresh.opcode = o → fresh.size = 1 →
      Rests p (f (some fresh)) (some g.strip)) :
    Takes (supply o >>= f) stock (opcodesSlot (stem stock g)) (· = stem stock g) := by
  subst hg
  rw [stem_of_ne_get ho]
  by_cases h : stock g.opcode = 0
  · rw [if_pos h]
    refine takes_then hp (takes_missed h) ⟨none, rfl⟩ fun x hx => ?_
    rw [hx]
    exact hnone
  · rw [if_neg h, opcodesSlot_some, opcodes_strip ho]
    refine takes_then hp (takes_supply h) ⟨some g.opcode.bare, g.opcode.bare, rfl, ?_⟩ fun x hx => ?_
    · cases g.opcode <;> exact ⟨rfl, rfl⟩
    · obtain ⟨fresh, rfl, ho, hsize⟩ := hx
      exact hsome fresh ho hsize

mutual

theorem takes_replicate : ∀ {stock : Opcode → Nat} (g : Gene),
    Takes (replicate p g) stock (opcodesSlot (stem stock g)) (· = stem stock g)
  | _, .branch q left right => by
    unfold replicate
    refine takes_root (o := .branch) hp rfl (by decide) (rests_pure none) fun _ _ _ => ?_
    exact rests_bind (rests_replicateSlot p left) (rests_bind (rests_replicateSlot p right)
      (rests_pure _))
  | _, .chop _ => by
    unfold replicate
    exact takes_root (o := .chop) hp rfl (by decide) (rests_pure none) fun _ _ _ => rests_pure _
  | _, .copy _ => by
    unfold replicate
    exact takes_root (o := .copy) hp rfl (by decide) (rests_pure none) fun _ _ _ => rests_pure _
  | _, .mutate _ => by
    unfold replicate
    exact takes_root (o := .mutate) hp rfl (by decide) (rests_pure none) fun _ _ _ => rests_pure _
  | _, .merge => by
    unfold replicate
    rw [← bind_pure (supply .merge)]
    refine takes_root (o := .merge) hp rfl (by decide) (rests_pure none) fun fresh ho _ => ?_
    cases fresh <;> first | exact rests_pure _ | cases ho
  | _, .put => by
    unfold replicate
    rw [← bind_pure (supply .put)]
    refine takes_root (o := .put) hp rfl (by decide) (rests_pure none) fun fresh ho _ => ?_
    cases fresh <;> first | exact rests_pure _ | cases ho
  | _, .sequence genes => by
    unfold replicate
    -- what is supplied is a single gene, so it brings no items of its own
    refine takes_root (o := .sequence) hp rfl (by decide) (rests_pure none) fun fresh _ hsize => ?_
    have hbare : Rests p (pure (some (Gene.sequence (itemsOf fresh ++ []))))
        (some (Gene.sequence [])) := by
      rw [itemsOf_eq_nil hsize]
      exact rests_pure _
    exact rests_bind (rests_replicateAll p genes) hbare
  | stock, .get template => by
    unfold replicate
    rw [stem]
    by_cases h : stock .get = 0
    · rw [if_pos h]
      refine takes_then hp (takes_missed h) ⟨none, rfl⟩ fun x hx => ?_
      rw [hx]
      exact rests_pure none
    · rw [if_neg h, opcodesSlot_some, opcodes_get]
      -- the template is copied from a stock that has one `Get` less
      refine takes_bind (takes_supply h) (fun x hx => ?_) ⟨some (.get none), .get none, rfl, rfl, rfl⟩
      obtain ⟨fresh, rfl, -⟩ := hx
      refine takes_then hp (takes_replicateTemplate template) ⟨_, rfl⟩
        fun t ht => ?_
      rw [ht]
      exact rests_pure _

theorem takes_replicateTemplate : ∀ {stock : Opcode → Nat} (template : Option Gene),
    Takes (replicateTemplate p template) stock (opcodesSlot (stemSlot stock template))
      (· = stemSlot stock template)
  | _, none => by
    unfold replicateTemplate
    exact (rests_pure none).takes hp
  | _, some template => by
    unfold replicateTemplate
    exact takes_replicate template

end

end

/-- With a probability or a temperature of never, pruning and mutation give the creature back as it
was, and the pool is as it was. With a probability of never, and lone genes as the only raw
material, a copy is the root by itself, or a chain of `Get` genes along the templates, as far as
there are lone genes for it. If the gauges cannot count them out, the copying breaks off. -/
theorem gates_closed (p : Probability) (g : Gene) (w : World) :
    ((p == .never) = true ∨ (w.pool.temperature == .never) = true →
      (∃ v, prune p g w = .ok g v ∧ Undisturbed w v) ∧
        ∃ v, mutate p g w = .ok g v ∧ Undisturbed w v) ∧
    ((p == .never) = true → w.drill = none → Bare w.pool →
      let stock := fun o : Opcode => (w.pool.filedUnder o.species).card
      let os := opcodesSlot (stem stock g)
      (Pool.Affords w.pool os.card (ends stock os) ∧
          ∃ v, replicate p g w = .ok (stem stock g) v) ∨
        ¬ Pool.Affords w.pool os.card (ends stock os) ∧
          ∃ v, replicate p g w = .error .differenceOverflow v) := by
  refine ⟨fun hclosed => ⟨rests_prune p g w hclosed, rests_mutate p g w hclosed⟩,
    fun hp hd hbare => ?_⟩
  intro stock os
  rcases (takes_replicate hp g).run w ⟨hd, hbare, fun _ => rfl⟩ with
    ⟨hafford, x, v, hv, rfl, -⟩ | hbroken
  · exact .inl ⟨hafford, v, hv⟩
  · exact .inr hbroken

def depot : Pool where
  buckets := [(Opcode.get.species, { members := #[.get none, .get none] })]
  temperature := .never
  species := .ofValue 1
  creatures := .ofValue 2

theorem bare_depot : Bare depot := by decide +kernel

/-- A chain of three is copied as far as two will do, and then its species has ended. -/
theorem gates_closed_chain :
    let w : World := { pool := depot, stream := .seeded 3 }
    let g : Gene := .get (some (.get (some (.get (some .put)))))
    (w.pool.temperature == .never) = true ∧ w.drill = none ∧ Bare w.pool ∧
      (∃ v, prune .always g w = .ok g v ∧ Undisturbed w v) ∧
      (∃ v, mutate .always g w = .ok g v ∧ Undisturbed w v) ∧
      ∃ v, replicate .never g w = .ok (some (.get (some (.get none)))) v := by
  intro w g
  have hfrozen : (w.pool.temperature == .never) = true := by decide +kernel
  obtain ⟨hprune, hmutate⟩ := (gates_closed .always g w).1 (.inr hfrozen)
  have hcopy := (gates_closed .never g w).2 (by decide +kernel) rfl bare_depot
  have hstock : (w.pool.filedUnder Opcode.get.species).card = 2 := by decide +kernel
  have hstem : stem (fun o => (w.pool.filedUnder o.species).card) g =
      some (.get (some (.get none))) := by
    simp [g, stem, stemSlot, spend, hstock]
  simp only [hstem] at hcopy
  refine ⟨hfrozen, rfl, bare_depot, hprune, hmutate, ?_⟩
  rcases hcopy with ⟨-, hv⟩ | ⟨hafford, -⟩
  · exact hv
  · have hends (stock : Opcode → Nat) :
        ends stock (opcodesSlot (some (.get (some (.get none))))) ≤ 1 := Finset.card_filter_le _ _
    refine absurd ⟨by decide, ?_⟩ hafford
    have := hends fun o => (w.pool.filedUnder o.species).card
    have hspecies : w.pool.species.current.toInt = 1 := rfl
    have hleast : Int64.minValue.toInt ≤ 0 := by decide
    omega

/-- With the count of creatures at its least the only `Put` cannot be counted out. -/
theorem gates_closed_exhausted :
    let p : Pool :=
      { buckets := [(Opcode.put.species, { members := #[.put] })]
        temperature := .even
        species := .ofValue 1
        creatures := .ofValue Int64.minValue }
    let w : World := { pool := p, stream := .seeded 3 }
    w.drill = none ∧ Bare w.pool ∧ ∃ v, replicate .never .put w = .error .differenceOverflow v := by
  intro p w
  have hbare : Bare w.pool := by decide +kernel
  have hcard : (w.pool.filedUnder Opcode.put.species).card = 1 := by decide +kernel
  have hne : w.pool.filedUnder Opcode.put.species ≠ 0 := by
    rw [Ne, ← Multiset.card_eq_zero, hcard]
    exact Nat.one_ne_zero
  have hwithdraws : Pool.Withdraws (Pool.request Opcode.put.species) w _ :=
    Pool.request_withdraws rfl (species_ne_any .put) hne
  refine ⟨rfl, hbare, ?_⟩
  rcases hwithdraws with ⟨hafford, -⟩ | ⟨-, v, hv⟩
  · exact absurd hafford.creatures (by decide)
  · exact ⟨v, bind_error hv⟩

end Program

end Biotope
