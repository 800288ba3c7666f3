import Mathlib
import Biotope.Growth.Grower
import Biotope.Proofs.Gauges
import Biotope.Proofs.Opcodes

/-!
# Grown creatures

A grown creature is put together of genes that the weights allow, down to templates that its
source has lent. Every gene of it is counted once, drawn or borrowed. The gauge has no say in what
is grown, but the growth breaks off past its end. With `room` levels left a creature has at most
one level more.
-/

namespace Biotope

namespace TemplateSource

/-- The source offers no template with more genes than 64 bits can count. -/
def Light (source : TemplateSource) : Prop :=
  ∀ n σ, ∀ shape ∈ (source n σ).1, shape.size < 2 ^ 63

end TemplateSource

namespace Growing

variable {α β : Type} {light : Prop}

/-- What a growth ends with, whatever the gauge: it gives `x` and has counted `n` by then, or the
gauge has no room for `n`. The latter is sure only if no template is too large to be counted. -/
structure Ends (light : Prop) (a : Growing α) (σ : Stream) (k : Nat) (x : α) (n : Int)
    (τ : Stream) (j : Nat) : Prop where
  nonneg : light → 0 ≤ n
  run : ∀ γ,
    (∃ δ, a ⟨γ, σ, k⟩ = .ok x ⟨δ, τ, j⟩ ∧ δ.current.toInt = γ.current.toInt + n ∧
      (γ.Ordered → δ.Ordered)) ∨
    (∃ q, a ⟨γ, σ, k⟩ = .error .sumOverflow q ∧ (light → 2 ^ 63 ≤ γ.current.toInt + n))

def Yields (light : Prop) (a : Growing α) (Q : α → Int → Prop) : Prop :=
  ∀ σ k, ∃ x n τ j, Ends light a σ k x n τ j ∧ Q x n

namespace Yields

variable {a : Growing α} {Q R : α → Int → Prop} {p q : Plot} {x : α} (h : Yields light a Q)
include h

theorem of_ok (hx : a p = .ok x q) : Q x (q.genes.current.toInt - p.genes.current.toInt) := by
  obtain ⟨y, n, τ, j, hends, hy⟩ := h p.stream p.requests
  rcases hends.run p.genes with ⟨δ, ha, hcount, -⟩ | ⟨r, ha, -⟩
  · cases hx.symm.trans ha
    rwa [hcount, add_sub_cancel_left]
  · cases hx.symm.trans ha

theorem ordered (hx : a p = .ok x q) (hp : p.genes.Ordered) : q.genes.Ordered := by
  obtain ⟨y, n, τ, j, hends, -⟩ := h p.stream p.requests
  rcases hends.run p.genes with ⟨δ, ha, -, hordered⟩ | ⟨r, ha, -⟩
  · cases hx.symm.trans ha
    exact hordered hp
  · cases hx.symm.trans ha

theorem of_error {f : Fault} (hf : a p = .error f q) : f = .sumOverflow := by
  obtain ⟨y, n, τ, j, hends, -⟩ := h p.stream p.requests
  rcases hends.run p.genes with ⟨δ, ha, -⟩ | ⟨r, ha, -⟩
  · cases hf.symm.trans ha
  · cases hf.symm.trans ha
    rfl

theorem mono (hQR : ∀ x n, Q x n → R x n) : Yields light a R := by
  intro σ k
  obtain ⟨x, n, τ, j, hends, hx⟩ := h σ k
  exact ⟨x, n, τ, j, hends, hQR x n hx⟩

theorem of_imp {heavy : Prop} (hlight : heavy → light) : Yields heavy a Q := by
  intro σ k
  obtain ⟨x, n, τ, j, hends, hx⟩ := h σ k
  refine ⟨x, n, τ, j, ⟨fun hh => hends.nonneg (hlight hh), fun γ => ?_⟩, hx⟩
  exact (hends.run γ).imp_right fun ⟨q, hq, hfull⟩ => ⟨q, hq, fun hh => hfull (hlight hh)⟩

end Yields

theorem Ends.bind {a : Growing α} {f : α → Growing β} {σ τ ρ : Stream} {k j i : Nat} {x : α}
    {y : β} {m n : Int} (ha : Ends light a σ k x m τ j) (hf : Ends light (f x) τ j y n ρ i) :
    Ends light (a >>= f) σ k y (m + n) ρ i := by
  refine ⟨fun hlight => add_nonneg (ha.nonneg hlight) (hf.nonneg hlight), fun γ => ?_⟩
  show (∃ δ, EStateM.bind a f ⟨γ, σ, k⟩ = _ ∧ _) ∨ ∃ q, EStateM.bind a f ⟨γ, σ, k⟩ = _ ∧ _
  rcases ha.run γ with ⟨δ, hx, hcount, hordered⟩ | ⟨q, hx, hfull⟩
  · simp only [EStateM.bind, hx]
    rcases hf.run δ with ⟨ε, hy, hcount', hordered'⟩ | ⟨q, hy, hfull⟩
    · exact .inl ⟨ε, hy, by rw [hcount', hcount, add_assoc], fun h => hordered' (hordered h)⟩
    · exact .inr ⟨q, hy, fun hlight => by rw [← add_assoc, ← hcount]; exact hfull hlight⟩
  · simp only [EStateM.bind, hx]
    -- what would have been counted after the break does not make room
    refine .inr ⟨q, rfl, fun hlight => ?_⟩
    have := hfull hlight
    have := hf.nonneg hlight
    omega

section
variable {a : Growing α} {Q : α → Int → Prop} {R : β → Int → Prop}

theorem yields_quiet (h : ∀ σ k, ∃ x τ j, (∀ γ, a ⟨γ, σ, k⟩ = .ok x ⟨γ, τ, j⟩) ∧ Q x 0) :
    Yields light a Q := by
  intro σ k
  obtain ⟨x, τ, j, ha, hx⟩ := h σ k
  exact ⟨x, 0, τ, j, ⟨fun _ => le_rfl, fun γ => .inl ⟨γ, ha γ, (add_zero _).symm, id⟩⟩, hx⟩

theorem yields_pure {x : α} (h : Q x 0) : Yields light (pure x) Q :=
  yields_quiet fun σ k => ⟨x, σ, k, fun _ => rfl, h⟩

theorem yields_bind {f : α → Growing β} (ha : Yields light a Q)
    (hf : ∀ x n, Q x n → Yields light (f x) fun y m => R y (n + m)) :
    Yields light (a >>= f) R := by
  intro σ k
  obtain ⟨x, m, τ, j, hends, hx⟩ := ha σ k
  obtain ⟨y, n, ρ, i, hends', hy⟩ := hf x m hx τ j
  exact ⟨y, m + n, ρ, i, hends.bind hends', hy⟩

/-- A growth that counts nothing leaves the description of the rest as it is. -/
theorem yields_after {f : α → Growing β} (ha : Yields light a fun _ n => n = 0)
    (hf : ∀ x, Yields light (f x) R) : Yields light (a >>= f) R := by
  apply yields_bind ha
  rintro x _ rfl
  simpa only [zero_add] using hf x

end

theorem yields_drawn (d : Draw α) :
    Yields light (draw d) fun x n => n = 0 ∧ ∃ σ, (d σ).1 = x :=
  yields_quiet fun σ k => ⟨(d σ).1, (d σ).2, k, fun _ => rfl, rfl, σ, rfl⟩

theorem yields_draw (d : Draw α) : Yields light (draw d) fun _ n => n = 0 :=
  (yields_drawn d).mono fun _ _ h => h.1

theorem yields_map (f : α → β) {a : Growing α} (ha : Yields light a fun _ n => n = 0) :
    Yields light (f <$> a) fun _ n => n = 0 := by
  show Yields light (a >>= fun x => pure (f x)) _
  exact yields_after ha fun _ => yields_pure rfl

theorem yields_count {c : Counting Int64} {n : Int} (hn : light → 0 ≤ n)
    (hok : ∀ {g h : Gauge} {v : Int64}, c g = .ok v h →
      h.current.toInt = g.current.toInt + n ∧ (g.Ordered → h.Ordered))
    (herror : ∀ {g h : Gauge} {f : Fault}, c g = .error f h →
      f = .sumOverflow ∧ (light → 2 ^ 63 ≤ g.current.toInt + n)) :
    Yields light (count c) fun _ m => m = n := by
  refine fun σ k => ⟨(), n, σ, k, ⟨hn, fun γ => ?_⟩, rfl⟩
  simp only [count]
  cases hc : c γ with
  | ok v δ => exact .inl ⟨δ, rfl, hok hc⟩
  | error f δ =>
    obtain ⟨rfl, hfull⟩ := herror hc
    exact .inr ⟨_, rfl, hfull⟩

end Growing

namespace TemplateSource

def Offers (source : TemplateSource) (t : Gene) : Prop := ∃ n σ, t ∈ (source n σ).1

inductive Lends (source : TemplateSource) (room : Nat) : Option Gene → Int → Prop where
  | none : Lends source room none 0
  | some {t : Gene} (h : source.Offers t) (hroom : t.depth ≤ room) :
      Lends source room (some t) (Int64.ofNat t.size).toInt

end TemplateSource

namespace Grower

open Growing TemplateSource

def Draws (g : Grower) (o : Opcode) : Prop := ∀ ws ∈ g.weights, ∃ σ, (ws.sample σ).1 = o

mutual

/-- What growth with `room` levels left below the root ends with, having counted so much. -/
inductive Grown (g : Grower) (source : TemplateSource) : Nat → Gene → Int → Prop where
  | lone {room : Nat} {x : Gene} (ho : g.Draws x.opcode) (hx : x.size = 1) :
      Grown g source room x 1
  | branch {room : Nat} {left right : Option Gene} {m n : Int} (ho : g.Draws .branch)
      (hl : GrownSlot g source room left m) (hr : GrownSlot g source room right n)
      (p : Probability) : Grown g source room (.branch p left right) (1 + (m + n))
  | nested {room : Nat} {t : Option Gene} {n : Int} (ho : g.Draws .get)
      (hp : g.policy = .template) (ht : GrownSlot g source room t n) :
      Grown g source room (.get t) (1 + n)
  | borrowed {room : Nat} {t : Option Gene} {n : Int} (ho : g.Draws .get)
      (hp : g.policy = .existingSpecies) (ht : source.Lends room t n) :
      Grown g source room (.get t) (1 + n)
  | sequence {room : Nat} {xs : List Gene} {n : Int} (ho : g.Draws .sequence)
      (hlen : xs.length ≤ room) (hs : GrownAll g source room xs n) :
      Grown g source room (.sequence xs) (1 + n)

inductive GrownSlot (g : Grower) (source : TemplateSource) : Nat → Option Gene → Int → Prop where
  | none {room : Nat} : GrownSlot g source room none 0
  | some {room : Nat} {x : Gene} {n : Int} (h : Grown g source room x n) :
      GrownSlot g source (room + 1) (some x) n

inductive GrownAll (g : Grower) (source : TemplateSource) : Nat → List Gene → Int → Prop where
  | nil {room : Nat} : GrownAll g source room [] 0
  | cons {room : Nat} {x : Gene} {xs : List Gene} {m n : Int}
      (h : GrownSlot g source room (some x) n) (hs : GrownAll g source room xs m) :
      GrownAll g source room (x :: xs) (n + m)

end

/-! ## Growing step by step -/

section
variable (g : Grower) {source : TemplateSource} {light : Prop} {room : Nat}

theorem yields_opcode : Yields light g.opcode fun o n => n = 1 ∧ g.Draws o := by
  have hfull {γ δ : Gauge} {f : Fault} (h : Gauge.increment γ = .error f δ) :
      f = .sumOverflow ∧ (light → 2 ^ 63 ≤ γ.current.toInt + 1) := by
    obtain ⟨hf, hmax⟩ := Gauge.increment_of_error h
    refine ⟨hf, fun _ => ?_⟩
    rw [hmax, Gauge.maxValue_toInt]
    norm_num
  have hrest {o : Opcode} (ho : g.Draws o) :
      Yields light (count Gauge.increment >>= fun _ => pure o) fun o n => n = 1 ∧ g.Draws o := by
    apply yields_bind (yields_count (fun _ => Int.one_nonneg) Gauge.increment_of_ok hfull)
    rintro _ _ rfl
    exact yields_pure ⟨add_zero 1, ho⟩
  unfold opcode
  cases hw : g.weights with
  | none =>
    -- without weights every opcode may be drawn
    apply yields_after (yields_map _ (yields_draw _))
    intro o
    apply hrest
    intro ws hws
    rw [hw] at hws
    cases hws
  | some ws =>
    apply yields_bind (yields_drawn ws.sample)
    rintro o _ ⟨rfl, ho⟩
    simp only [zero_add]
    apply hrest
    intro vs hvs
    rw [hw] at hvs
    cases hvs
    exact ho

theorem yields_goesOn : Yields light g.goesOn fun _ n => n = 0 :=
  yields_after (yields_draw _) fun _ => yields_draw _

theorem yields_slot {child : Option (Growing Gene)}
    (h : ∀ c ∈ child, Yields light c fun x => g.GrownSlot source room (some x)) :
    Yields light (g.slot child) (g.GrownSlot source room) := by
  cases child with
  | none => exact yields_pure .none
  | some c =>
    apply yields_after g.yields_goesOn
    intro yes
    split
    · apply yields_bind (h c rfl)
      intro x n hx
      apply yields_pure
      simpa only [add_zero] using hx
    · exact yields_pure .none

theorem yields_items {child : Growing Gene}
    (h : Yields light child fun x => g.GrownSlot source room (some x)) :
    ∀ k, Yields light (g.items child k) fun xs n =>
      xs.length ≤ k ∧ g.GrownAll source room xs n
  | 0 => yields_pure ⟨le_rfl, .nil⟩
  | k + 1 => by
    apply yields_after g.yields_goesOn
    intro yes
    split
    · apply yields_bind h
      intro x n hx
      apply yields_bind (yields_items h k)
      rintro xs m ⟨hlen, hxs⟩
      apply yields_pure
      refine ⟨Nat.succ_le_succ hlen, ?_⟩
      simpa only [add_zero] using GrownAll.cons hx hxs
    · exact yields_pure ⟨Nat.zero_le _, .nil⟩

theorem yields_borrow (source : TemplateSource) (room : Nat) :
    Yields source.Light (borrow source room) (source.Lends room) := by
  have hask : Yields source.Light (ask source) fun x n => n = 0 ∧ ∃ k σ, (source k σ).1 = x :=
    yields_quiet fun σ k => ⟨(source k σ).1, (source k σ).2, k + 1, fun _ => rfl, rfl, k, σ, rfl⟩
  apply yields_bind hask
  rintro x _ ⟨rfl, k, σ, hx⟩
  simp only [zero_add]
  cases x with
  | none => exact yields_pure .none
  | some shape =>
    simp only
    split
    · rename_i hroom
      have hnonneg (h : source.Light) : 0 ≤ (Int64.ofNat shape.size).toInt := by
        rw [Int64.toInt_ofNat_of_lt (h k σ shape hx)]
        exact Int.natCast_nonneg _
      have hadd : Yields source.Light (count (Gauge.add (Int64.ofNat shape.size)))
          fun _ n => n = (Int64.ofNat shape.size).toInt := by
        refine yields_count hnonneg (fun h => ⟨Gauge.add_current h, Gauge.add_of_ok h⟩) fun h => ?_
        obtain ⟨hf, hfull⟩ := Gauge.add_of_error h
        exact ⟨hf, fun h => hfull (hnonneg h)⟩
      apply yields_bind hadd
      rintro _ n rfl
      apply yields_pure
      simpa only [add_zero] using Lends.some ⟨k, σ, hx⟩ hroom.2
    · exact yields_pure .none

theorem yields_gene {child : Option (Growing Gene)}
    (h : ∀ c ∈ child, Yields source.Light c fun x => g.GrownSlot source room (some x)) :
    Yields source.Light (g.gene source room child) (g.Grown source room) := by
  apply yields_bind g.yields_opcode
  rintro o _ ⟨rfl, ho⟩
  have hlone {x : Gene} (hx : x.size = 1) (hxo : x.opcode = o) :
      Yields source.Light (pure x) fun y m => g.Grown source room y (1 + m) :=
    yields_pure (.lone (hxo ▸ ho) hx)
  cases o with
  | branch =>
    apply yields_bind (g.yields_slot h)
    intro left l hl
    apply yields_bind (g.yields_slot h)
    intro right r hr
    apply yields_after (yields_draw _)
    intro p
    apply yields_pure
    simpa only [add_zero] using Grown.branch ho hl hr p
  | chop => exact yields_after (yields_draw _) fun p => hlone rfl rfl
  | copy => exact yields_after (yields_draw _) fun p => hlone rfl rfl
  | get =>
    simp only
    split
    · rename_i hp
      apply yields_bind (g.yields_slot h)
      intro t n ht
      apply yields_pure
      simpa only [add_zero] using Grown.nested ho hp ht
    · rename_i hp
      apply yields_bind (yields_borrow source room)
      intro t n ht
      apply yields_pure
      simpa only [add_zero] using Grown.borrowed ho hp ht
  | merge => exact hlone rfl rfl
  | mutate => exact yields_after (yields_draw _) fun p => hlone rfl rfl
  | put => exact hlone rfl rfl
  | sequence =>
    cases child with
    -- without children the sequence is empty, a single gene like the others
    | none => exact hlone rfl rfl
    | some c =>
      apply yields_bind (g.yields_items (h c rfl) room)
      rintro xs n ⟨hlen, hxs⟩
      apply yields_pure
      simpa only [add_zero] using Grown.sequence ho hlen hxs

theorem yields_grow (source : TemplateSource) :
    ∀ room, Yields source.Light (g.grow source room) (g.Grown source room)
  | 0 => g.yields_gene fun c hc => by cases hc
  | room + 1 => g.yields_gene fun c hc => by
    cases hc
    exact (yields_grow source room).mono fun _ _ => .some

end

end Grower

/-! ## Counting and levels -/

namespace TemplateSource

/-- What is grown has so many genes and levels: no more levels than are allowed, and as many genes
as are counted, but that 64 bits cannot count a template that is too large. -/
structure Fits (source : TemplateSource) (levels genes height : Nat) (n : Int) : Prop where
  wraps : n ≡ genes [ZMOD 2 ^ 64]
  size : source.Light → n = genes
  depth : height ≤ levels

variable {source : TemplateSource} {levels a b d e : Nat} {m n : Int}

theorem fits_none : Fits source levels 0 0 0 := ⟨rfl, fun _ => rfl, Nat.zero_le _⟩

theorem Fits.beside (h : Fits source levels a d m) (h' : Fits source levels b e n) :
    Fits source levels (a + b) (max d e) (m + n) := by
  refine ⟨?_, fun hlight => ?_, max_le h.depth h'.depth⟩
  · rw [Nat.cast_add]
    exact h.wraps.add h'.wraps
  · rw [h.size hlight, h'.size hlight, Nat.cast_add]

theorem Fits.root (h : Fits source levels a d n) :
    Fits source (levels + 1) (1 + a) (1 + d) (1 + n) := by
  refine ⟨?_, fun hlight => ?_, ?_⟩
  · rw [Nat.cast_add, Nat.cast_one]
    exact h.wraps.add_left 1
  · rw [h.size hlight, Nat.cast_add, Nat.cast_one]
  · have := h.depth
    omega

theorem fits_lone {x : Gene} (hx : x.size = 1) : Fits source (levels + 1) x.size x.depth 1 := by
  rw [hx]
  refine ⟨rfl, fun _ => rfl, ?_⟩
  have := Gene.depth_le_size x
  omega

theorem Lends.fits {x : Option Gene} (h : source.Lends levels x n) :
    Fits source levels (Gene.sizeSlot x) (Gene.depthSlot x) n := by
  cases h with
  | none => exact fits_none
  | @some t h hroom =>
    refine ⟨?_, fun hlight => ?_, hroom⟩
    · rw [Int64.toInt_ofNat']
      exact Int.bmod_emod
    · obtain ⟨k, σ, hk⟩ := h
      rw [Int64.toInt_ofNat_of_lt (hlight k σ t hk)]
      rfl

end TemplateSource

namespace Grower

open Growing TemplateSource

section
variable {g : Grower} {source : TemplateSource}

mutual

theorem Grown.fits {room : Nat} {x : Gene} {n : Int} :
    g.Grown source room x n → Fits source (room + 1) x.size x.depth n
  | .lone _ hx => fits_lone hx
  | .branch _ hl hr _ => (hl.fits.beside hr.fits).root
  | .nested _ _ ht => ht.fits.root
  | .borrowed _ _ ht => ht.fits.root
  | .sequence _ _ hs => hs.fits.root

theorem GrownSlot.fits {room : Nat} {x : Option Gene} {n : Int} :
    g.GrownSlot source room x n → Fits source room (Gene.sizeSlot x) (Gene.depthSlot x) n
  | .none => fits_none
  | .some h => h.fits

theorem GrownAll.fits {room : Nat} {xs : List Gene} {n : Int} :
    g.GrownAll source room xs n → Fits source room (Gene.sizeAll xs) (Gene.depthAll xs) n
  | .nil => fits_none
  | .cons h hs => h.fits.beside hs.fits

end

end

theorem yields_creature (g : Grower) (source : TemplateSource) :
    Yields source.Light (g.creature source) fun x n =>
      Fits source (g.maximumDepth + 1) x.size x.depth n :=
  (g.yields_grow source _).mono fun _ _ => Grown.fits

end Grower

end Biotope
