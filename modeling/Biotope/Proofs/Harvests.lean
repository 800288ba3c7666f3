import Biotope.Proofs.Growth
import Biotope.Proofs.Sampling

/-!
# Creatures as they are grown

Each level of a creature takes one from the levels that are left, so neither a sequence nor a
template leads past the depth limit. One creature after another is counted on the same gauge, and
with weights no gene has an opcode that is never drawn.
-/

namespace Biotope

/-! ## Genes inside a creature -/

namespace Gene

def children : Gene → List Gene
  | branch _ left right => left.toList ++ right.toList
  | get template => template.toList
  | sequence genes => genes
  | chop _ | copy _ | merge | mutate _ | put => []

inductive Below (x : Gene) : Nat → Gene → Prop where
  | root : Below x 0 x
  | child {d : Nat} {y z : Gene} (hy : Below x d y) (hz : z ∈ y.children) : Below x (d + 1) z

theorem size_eq_children (x : Gene) : x.size = 1 + sizeAll x.children := by
  cases x with
  | branch p left right =>
    cases left <;> cases right <;> simp [children, size, sizeSlot, sizeAll]
  | get t => cases t <;> rfl
  | sequence _ => rfl
  | chop _ => rfl
  | copy _ => rfl
  | merge => rfl
  | mutate _ => rfl
  | put => rfl

theorem children_of_lone {x : Gene} (hx : x.size = 1) : x.children = [] := by
  have hsize := x.size_eq_children
  cases hc : x.children with
  | nil => rfl
  | cons y ys =>
    have := y.size_pos
    rw [hc, sizeAll] at hsize
    omega

end Gene

theorem Growing.ok_of_run' {α : Type} {a : Growing α} {p : Plot} {x : α}
    (h : a.run' p = some x) : ∃ q, a p = .ok x q := by
  rw [EStateM.run', EStateM.run] at h
  cases ha : a p with
  | ok y q =>
    rw [ha] at h
    cases h
    exact ⟨q, rfl⟩
  | error f q =>
    rw [ha] at h
    cases h

namespace Grower

open Gene Growing TemplateSource

section
variable {g : Grower} {source : TemplateSource} {room : Nat} {x y : Gene} {n : Int}

theorem Grown.draws (h : g.Grown source room x n) : g.Draws x.opcode := by
  cases h with
  | lone ho _ => exact ho
  | branch ho _ _ _ => exact ho
  | nested ho _ _ => exact ho
  | borrowed ho _ _ => exact ho
  | sequence ho _ _ => exact ho

theorem GrownAll.mem {xs : List Gene} (h : g.GrownAll source room xs n) (hy : y ∈ xs) :
    ∃ m, g.GrownSlot source room (some y) m := by
  induction xs generalizing n with
  | nil => cases hy
  | cons x xs ih =>
    cases h with
    | cons h hs =>
      rcases List.mem_cons.mp hy with rfl | hy
      · exact ⟨_, h⟩
      · exact ih hs hy

/-- A creature that borrows nothing has been grown all the way down. -/
theorem Grown.child (hp : g.policy = .template) (h : g.Grown source room x n)
    (hy : y ∈ x.children) : ∃ r m, room = r + 1 ∧ g.Grown source r y m := by
  have hslot : ∃ m, g.GrownSlot source room (some y) m := by
    cases h with
    | lone _ hx =>
      rw [children_of_lone hx] at hy
      cases hy
    | branch _ hl hr _ =>
      rcases List.mem_append.mp hy with hy | hy
      · cases Option.mem_toList.mp hy
        exact ⟨_, hl⟩
      · cases Option.mem_toList.mp hy
        exact ⟨_, hr⟩
    | nested _ _ ht =>
      cases Option.mem_toList.mp hy
      exact ⟨_, ht⟩
    | borrowed _ hborrows _ =>
      rw [hp] at hborrows
      cases hborrows
    | sequence _ _ hs => exact hs.mem hy
  obtain ⟨m, hslot⟩ := hslot
  cases hslot with
  | some hy => exact ⟨_, m, rfl, hy⟩

theorem Grown.inside (hp : g.policy = .template) (h : g.Grown source room x n) {d : Nat}
    (hy : x.Below d y) : ∃ r m, room = d + r ∧ g.Grown source r y m := by
  induction hy with
  | root => exact ⟨room, n, (Nat.zero_add room).symm, h⟩
  | child _ hz ih =>
    obtain ⟨_, _, hroom, hy⟩ := ih
    obtain ⟨r, m, rfl, hz⟩ := hy.child hp hz
    exact ⟨r, m, by omega, hz⟩

theorem Grown.length_le {ys : List Gene} (h : g.Grown source room (.sequence ys) n) :
    ys.length ≤ room := by
  cases h with
  | lone _ hx =>
    have hnil : ys = [] := children_of_lone hx
    rw [hnil]
    exact Nat.zero_le room
  | sequence _ hlen _ => exact hlen

end

/-! ## The depth limit -/

/-- A creature is grown unless the gauge has no room for its genes. Whatever the source offers, it
has at most one level more than the depth limit, and a sequence grown without borrowing has at most
as many items as there are levels left below it. -/
theorem creature_bounded (g : Grower) (source : TemplateSource) (σ : Stream) (k : Nat) :
    ∃ x τ j, x.depth ≤ g.maximumDepth + 1 ∧
      (g.policy = .template → ∀ d ys, x.Below d (.sequence ys) →
        d + ys.length ≤ g.maximumDepth) ∧
      ∀ γ, (∃ δ, g.creature source ⟨γ, σ, k⟩ = .ok x ⟨δ, τ, j⟩) ∨
        (∃ q, g.creature source ⟨γ, σ, k⟩ = .error .sumOverflow q ∧
          (source.Light → 2 ^ 63 ≤ γ.current.toInt + x.size)) := by
  obtain ⟨x, n, τ, j, hends, hx⟩ := g.yields_grow source g.maximumDepth σ k
  refine ⟨x, τ, j, hx.fits.depth, fun hp d ys hys => ?_, fun γ => ?_⟩
  · obtain ⟨r, m, hroom, hys⟩ := hx.inside hp hys
    have := hys.length_le
    omega
  · rcases hends.run γ with ⟨δ, hdone, -⟩ | ⟨q, hfull, hcount⟩
    · exact .inl ⟨δ, hdone⟩
    · refine .inr ⟨q, hfull, fun hlight => ?_⟩
      rw [← hx.fits.size hlight]
      exact hcount hlight

/-- Two levels below the root, grown on at every chance. -/
theorem creature_bounded_two :
    let g : Grower := { complexity := .always, maximumDepth := 2 }
    ∃ x q, g.creature .nothing ⟨{}, .seeded 7, 0⟩ = .ok x q ∧ x.depth ≤ 3 ∧
      ∀ d ys, x.Below d (.sequence ys) → d + ys.length ≤ 2 := by
  intro g
  obtain ⟨x, τ, j, hdepth, hsequence, hrun⟩ := g.creature_bounded .nothing (.seeded 7) 0
  have hdone : ((g.creature .nothing).run' ⟨{}, .seeded 7, 0⟩).isSome = true := by decide +kernel
  obtain ⟨y, hy⟩ := Option.isSome_iff_exists.mp hdone
  obtain ⟨r, hy⟩ := ok_of_run' hy
  rcases hrun {} with ⟨δ, hx⟩ | ⟨q, hx, -⟩
  · exact ⟨x, _, hx, hdepth, hsequence rfl⟩
  · cases hy.symm.trans hx

/-! ## Counting -/

/-- One creature after another, each with a source of its own. -/
theorem yields_creatures (g : Grower) : ∀ sources : List TemplateSource,
    Yields (∀ s ∈ sources, s.Light) (sources.mapM g.creature) fun xs n =>
      xs.length = sources.length ∧ n ≡ (xs.map Gene.size).sum [ZMOD 2 ^ 64] ∧
        ((∀ s ∈ sources, s.Light) → n = (xs.map Gene.size).sum)
  | [] => yields_pure ⟨rfl, rfl, fun _ => rfl⟩
  | source :: sources => by
    have hhead (h : ∀ s ∈ source :: sources, s.Light) : source.Light := h _ List.mem_cons_self
    have htail (h : ∀ s ∈ source :: sources, s.Light) : ∀ s ∈ sources, s.Light :=
      fun s hs => h s (List.mem_cons_of_mem _ hs)
    rw [List.mapM_cons]
    apply yields_bind ((g.yields_creature source).of_imp hhead)
    intro x m hx
    apply yields_bind ((yields_creatures g sources).of_imp htail)
    rintro xs n ⟨hlength, hwraps, hsize⟩
    apply yields_pure
    simp only [add_zero, List.map_cons, List.sum_cons, Nat.cast_add]
    refine ⟨congrArg (· + 1) hlength, hx.wraps.add hwraps, fun hlight => ?_⟩
    rw [hx.size (hhead hlight), hsize (htail hlight)]

/-- However many creatures are grown, with whatever sources, the gauge rises by the number of their
genes, unless a template and all of them together are more than 64 bits can count. -/
theorem creatures_counted (g : Grower) (sources : List TemplateSource) (σ : Stream) (k : Nat) :
    ∃ xs τ j, xs.length = sources.length ∧ ∀ γ,
      (∃ δ, sources.mapM g.creature ⟨γ, σ, k⟩ = .ok xs ⟨δ, τ, j⟩ ∧
        ((∀ s ∈ sources, s.Light) ∨ γ.current.toInt + (xs.map Gene.size).sum < 2 ^ 63 →
          δ.current.toInt = γ.current.toInt + (xs.map Gene.size).sum)) ∨
      (∃ q, sources.mapM g.creature ⟨γ, σ, k⟩ = .error .sumOverflow q ∧
        ((∀ s ∈ sources, s.Light) → 2 ^ 63 ≤ γ.current.toInt + (xs.map Gene.size).sum)) := by
  obtain ⟨xs, n, τ, j, hends, hlength, hwraps, hsize⟩ := g.yields_creatures sources σ k
  refine ⟨xs, τ, j, hlength, fun γ => ?_⟩
  rcases hends.run γ with ⟨δ, hdone, hcount, -⟩ | ⟨q, hfull, hcount⟩
  · refine .inl ⟨δ, hdone, fun hroom => ?_⟩
    rcases hroom with hlight | hroom
    · rw [hcount, hsize hlight]
    -- both are 64-bit numbers, and they agree up to a multiple of the range
    · have hwraps : n % 2 ^ 64 = (xs.map Gene.size).sum % 2 ^ 64 := hwraps
      have hlow := γ.current.le_toInt
      have hlow' := δ.current.le_toInt
      have hlt' := δ.current.toInt_lt
      omega
  · exact .inr ⟨q, hfull, fun hlight => hsize hlight ▸ hcount hlight⟩

/-- Both creatures are `Get` genes. The first template is refused, being too deep, and the second
borrowed with its three genes. -/
theorem creatures_counted_borrowed :
    let g : Grower := { complexity := .always, maximumDepth := 2, policy := .existingSpecies }
    let source : TemplateSource := fun n =>
      return if n = 0 then some (.get (some (.get (some .put)))) else some (.sequence [.put, .merge])
    ∃ xs q, [source, source].mapM g.creature ⟨{}, ⟨fun _ => 0x6000000000000000, 0⟩, 0⟩ = .ok xs q ∧
      xs.map Gene.size = [1, 4] ∧ q.genes.current.toInt = 5 := by
  intro g source
  let σ : Stream := ⟨fun _ => 0x6000000000000000, 0⟩
  obtain ⟨xs, τ, j, -, hrun⟩ := g.creatures_counted [source, source] σ 0
  have hdone : (([source, source].mapM g.creature).run' ⟨{}, σ, 0⟩).map (List.map Gene.size) =
      some [1, 4] := by decide +kernel
  obtain ⟨ys, hys, hsizes⟩ := Option.map_eq_some_iff.mp hdone
  obtain ⟨r, hys⟩ := ok_of_run' hys
  rcases hrun {} with ⟨δ, hxs, hcount⟩ | ⟨q, hxs, -⟩
  · cases hys.symm.trans hxs
    rw [hsizes] at hcount
    exact ⟨_, _, hys, hsizes, hcount (.inr (by decide))⟩
  · cases hys.symm.trans hxs

/-! ## Weights -/

/-- With weights and without borrowing every gene of a creature has an opcode whose weight is above
zero. -/
theorem creature_weighted {g : Grower} {ws : List Float} {W : Weights}
    (h : Weights.ofList ws = .ok (.ok W)) (hw : g.weights = some W) (hp : g.policy = .template)
    {source : TemplateSource} {p q : Plot} {x : Gene} (hx : g.creature source p = .ok x q) :
    ∀ d y, x.Below d y → 0.0 < weight ws y.opcode := by
  intro d y hy
  obtain ⟨r, m, -, hgrown⟩ := ((g.yields_grow source g.maximumDepth).of_ok hx).inside hp hy
  obtain ⟨σ, hσ⟩ := hgrown.draws W hw
  rw [← hσ]
  exact Weights.sample_weight h σ

/-- The total is so small that the scale is a step below it, and all draws are the greatest. -/
theorem creature_weighted_subnormal :
    let ws : List Float := [0.0, 0.0, 0.0, .ofBits 3, 0.0, 0.0, 0.0, 0.0]
    ∃ W, Weights.ofList ws = .ok (.ok W) ∧
      let g : Grower := { complexity := .always, maximumDepth := 1, weights := some W }
      ∃ x q, g.creature .nothing ⟨{}, ⟨fun _ => 0xFFFFFFFFFFFFFFFF, 0⟩, 0⟩ = .ok x q ∧
        ∀ d y, x.Below d y → 0.0 < weight ws y.opcode := by
  intro ws
  let grower (W : Weights) : Grower :=
    { complexity := .always, maximumDepth := 1, weights := some W }
  let p : Plot := ⟨{}, ⟨fun _ => 0xFFFFFFFFFFFFFFFF, 0⟩, 0⟩
  have hdone : (((Weights.ofList ws).toOption.bind Except.toOption).any fun W =>
      (((grower W).creature .nothing).run' p).isSome) = true := by decide +kernel
  cases hW : Weights.ofList ws with
  | error f =>
    rw [hW] at hdone
    cases hdone
  | ok r =>
    rw [hW] at hdone
    cases r with
    | error e => cases hdone
    | ok W =>
      obtain ⟨x, hx⟩ := Option.isSome_iff_exists.mp hdone
      obtain ⟨q, hx⟩ := ok_of_run' hx
      exact ⟨W, rfl, x, q, hx, creature_weighted hW rfl rfl hx⟩

end Grower

end Biotope
