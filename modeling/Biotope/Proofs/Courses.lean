import Biotope.Pool.Survey
import Biotope.Proofs.Overgrowth
import Biotope.Proofs.Upkeep

/-!
# Courses of operations

A pool lives through operations one after another, in any order and with any outcome of
chance. Some may break off, and the next one then goes on with what is there. The pool is
sound all the time, but for the marks of the count of genes after a seeding that has grown more
genes than can be counted. They are right again once the marks are reset.
-/

namespace Biotope

open Act

inductive Operation where
  | populate (n : Nat) (complexity : Probability) (depth : Nat) (temperature : Probability)
  | populateWith (s : PoolSettings)
  | put (g : Gene)
  | get (id : SpeciesId)
  | pick
  | setTemperature (t : Probability)
  | flip (p : Probability)
  | resetMarks
  | snapshot
  /-- Goes over to a processor with the given operands. -/
  | attend (operands : List Gene)
  | process (g : Gene)
  | reset

namespace Operation

def act : Operation → Act Unit
  | populate n complexity depth temperature =>
    Pool.seed n temperature { complexity, maximumDepth := depth }
  | populateWith s => discard (Pool.seedWith s)
  | put g => Pool.put g
  | get id => discard (Pool.take id)
  | pick => discard Pool.pick
  | setTemperature t => Pool.setTemperature t
  | flip p => discard (Pool.flip p)
  | resetMarks => Pool.resetWaterMarks
  | snapshot => discard Pool.takeCensus
  | attend operands => modify ({ · with stack := operands })
  | process g => Program.run g
  | reset => Program.reset

def seeds : Operation → Bool
  | populate .. | populateWith _ => true
  | _ => false

/-- The operation is a seeding that breaks off because a gauge would overflow. -/
def Overruns (op : Operation) (w : World) : Prop :=
  op.seeds ∧ ∃ v, op.act w = .error .sumOverflow v

/-- The operation sets the marks of all gauges to their counts: it resets them, or it is a seeding
that is carried through. -/
def Settles : Operation → World → Prop
  | .populate n complexity depth temperature, w =>
    ∃ v, (populate n complexity depth temperature).act w = .ok () v
  | .populateWith s, w =>
    (∃ r, Pool.plan s = .ok (.ok r)) ∧ ∃ v, (populateWith s).act w = .ok () v
  | .resetMarks, _ => True
  | _, _ => False

end Operation

def courses : List Operation → World → World
  | [], w => w
  | op :: ops, w => courses ops (reached (op.act w))

/-- After every operation fewer than `2 ^ 63` creatures are held. -/
def InPlay : List Operation → World → Prop
  | [], _ => True
  | op :: ops, w =>
    (reached (op.act w)).pool.held.card < 2 ^ 63 ∧ InPlay ops (reached (op.act w))

def Unsettled : List Operation → World → Prop
  | [], _ => True
  | op :: ops, w => ¬ op.Settles w ∧ Unsettled ops (reached (op.act w))

/-- Some seeding breaks off because more genes were grown than a gauge counts, and the marks are
not set to the counts from then on. -/
def Overgrown : List Operation → World → Prop
  | [], _ => False
  | op :: ops, w =>
    op.Overruns w ∧ Unsettled ops (reached (op.act w)) ∨ Overgrown ops (reached (op.act w))

namespace Pool

/-! ## What an operation keeps -/

/-- Taking and putting leave the count of genes alone and keep the rest tallied while the
creatures can be counted. -/
theorem upheld_tallied (γ : Gauge) : Upheld (fun p => p.Tallied ∧ p.genes = γ)
    fun _ p => (p.Tallied ∨ p.Overfull) ∧ p.genes = γ := by
  refine ⟨fun _ p h => ⟨.inl h.1, h.2⟩, fun id => ⟨?_, ?_⟩, fun g => ⟨?_, ?_⟩⟩
  · intro w v x ⟨ht, hg⟩ h
    obtain ⟨hx, -, -⟩ := of_take_ok ht.filed h
    exact ⟨hx.tallied ht, hx.genes.trans hg⟩
  · intro w v f ⟨ht, _⟩ h
    obtain ⟨x, u, hu⟩ := take_done ht id
    rw [hu] at h
    cases h
  · intro w v u ⟨ht, hg⟩ h
    obtain ⟨hx, -, -⟩ := of_put_ok ht.filed h
    exact ⟨hx.tallied ht, hx.genes.trans hg⟩
  · intro w v f ⟨ht, hg⟩ h
    obtain ⟨-, -, hc, hx⟩ := of_put_error ht h
    exact ⟨.inr hc.ge, hx.trans hg⟩

structure Upkeep (op : Operation) (w v : World) : Prop where
  tallied : v.pool.Tallied ∨ v.pool.Overfull
  ordered : w.pool.genes.Ordered → v.pool.genes.Ordered ∨ op.Overruns w
  settled : op.Settles w → v.pool.genes.Ordered

theorem upkeep_of_keeps {op : Operation} {w : World} (h : w.pool.Tallied) (hs : ¬ op.Settles w)
    (hk : Keeps (fun p => p.Tallied ∧ p.genes = w.pool.genes)
      (fun _ p => (p.Tallied ∨ p.Overfull) ∧ p.genes = w.pool.genes) op.act) :
    Upkeep op w (reached (op.act w)) := by
  have hend : ((reached (op.act w)).pool.Tallied ∨ (reached (op.act w)).pool.Overfull) ∧
      (reached (op.act w)).pool.genes = w.pool.genes := by
    cases ha : op.act w with
    | ok x v =>
      obtain ⟨ht, hg⟩ := hk.of_ok ⟨h, rfl⟩ ha
      exact ⟨.inl ht, hg⟩
    | error f v => exact hk.of_error ⟨h, rfl⟩ ha
  exact ⟨hend.1, fun ho => .inl (hend.2 ▸ ho), fun h => absurd h hs⟩

/-- An operation that ends like a seeding ends in a sound pool or breaks off in one that is
sound but for its count of genes. -/
theorem upkeep_seed {op : Operation} (hop : op.seeds = true) {w : World} {n : Nat}
    {t : Probability} {g : Grower} (hok : ∀ {u v}, seed n t g w = .ok u v → op.act w = .ok () v)
    (herror : ∀ {f v}, seed n t g w = .error f v → op.act w = .error f v)
    (hsettles : op.Settles w → ∃ v, op.act w = .ok () v) :
    Upkeep op w (reached (op.act w)) := by
  cases hs : seed n t g w with
  | ok u v =>
    rw [hok hs]
    have := of_seed_ok hs
    exact ⟨.inl this.tallied, fun _ => .inl this.genes_ordered, fun _ => this.genes_ordered⟩
  | error f v =>
    obtain ⟨rfl, ht⟩ := of_seed_error hs
    refine ⟨herror hs ▸ ht, fun _ => .inr ⟨hop, v, herror hs⟩, fun h => ?_⟩
    obtain ⟨u, hu⟩ := hsettles h
    cases hu.symm.trans (herror hs)

theorem calm_takeCensus : Calm takeCensus fun _ => True :=
  calm_entering (calm_bind calm_getPool fun _ _ => calm_pure trivial)

theorem keeps_setTemperature {P : Pool → Prop} {E : Fault → Pool → Prop} (t : Probability)
    (h : ∀ p : Pool, P p → P { p with temperature := t }) : Keeps P E (setTemperature t) :=
  keeps_entering (keeps_modifyPool h)

theorem populateWith_cases (s : PoolSettings) (w : World) :
    (¬ (Operation.populateWith s).Settles w ∧
      reached ((Operation.populateWith s).act w) = w) ∨
      ∃ n t g, (∀ {u v}, seed n t g w = .ok u v → (Operation.populateWith s).act w = .ok () v) ∧
        ∀ {f v}, seed n t g w = .error f v → (Operation.populateWith s).act w = .error f v := by
  cases hp : plan s with
  | error f =>
    refine .inl ⟨fun ⟨⟨r, hr⟩, _⟩ => ?_, ?_⟩
    · cases hp.symm.trans hr
    · simp only [Operation.act, seedWith, hp]
      rfl
  | ok r =>
    cases r with
    | error e =>
      refine .inl ⟨fun ⟨⟨r, hr⟩, _⟩ => ?_, ?_⟩
      · cases hp.symm.trans hr
      · simp only [Operation.act, seedWith, hp]
        rfl
    | ok tg =>
      refine .inr ⟨s.initialCreatures.toNat, tg.1, tg.2, ?_, ?_⟩
      · intro u v hs
        simp only [Operation.act, seedWith, hp, discard_eq]
        exact bind_ok (bind_ok hs)
      · intro f v hs
        simp only [Operation.act, seedWith, hp, discard_eq]
        exact bind_error (bind_error hs)

theorem upkeep_populateWith (s : PoolSettings) {w : World} (h : w.pool.Tallied) :
    Upkeep (.populateWith s) w (reached ((Operation.populateWith s).act w)) := by
  rcases populateWith_cases s w with ⟨hs, hw⟩ | ⟨n, t, g, hok, herror⟩
  · rw [hw]
    exact ⟨.inl h, .inl, fun h => absurd h hs⟩
  · exact upkeep_seed rfl hok herror And.right

theorem upkeep_operation (op : Operation) {w : World} (h : w.pool.Tallied) :
    Upkeep op w (reached (op.act w)) := by
  have hu := upheld_tallied w.pool.genes
  cases op with
  | populate n complexity depth temperature =>
    exact upkeep_seed (n := n) (t := temperature) (g := { complexity, maximumDepth := depth }) rfl
      (fun h => h) (fun h => h) fun h => h
  | populateWith s => exact upkeep_populateWith s h
  | put g => exact upkeep_of_keeps h id (hu.put g)
  | get s => exact upkeep_of_keeps h id (keeps_discard (hu.take s))
  | pick => exact upkeep_of_keeps h id (keeps_discard calm_pick.keeps)
  | setTemperature t =>
    refine upkeep_of_keeps h id (keeps_setTemperature t fun p ⟨ht, hg⟩ => ⟨?_, hg⟩)
    exact ⟨ht.filed, ht.species, ht.creatures, ht.species_ordered, ht.creatures_ordered⟩
  | flip p => exact upkeep_of_keeps h id (keeps_discard (calm_flip p).keeps)
  | resetMarks =>
    have hordered : (notified w).pool.resetMarks.genes.Ordered := Gauge.ordered_resetMarks _
    refine ⟨.inl ?_, fun _ => .inl hordered, fun _ => hordered⟩
    exact (show (notified w).pool.resetMarks.Tallied by rw [notified_pool]; exact h.resetMarks)
  | snapshot =>
    exact upkeep_of_keeps h id (keeps_discard calm_takeCensus.keeps)
  | attend operands =>
    exact upkeep_of_keeps h id (idle_modify (f := ({ · with stack := operands })) fun _ => rfl).keeps
  | process g => exact upkeep_of_keeps h id (Program.keeps_run hu g)
  | reset => exact upkeep_of_keeps h id (Program.keeps_reset hu)

theorem tallied_operation (op : Operation) {w : World} (h : w.pool.Tallied)
    (hc : (reached (op.act w)).pool.held.card < 2 ^ 63) : (reached (op.act w)).pool.Tallied :=
  (upkeep_operation op h).tallied.resolve_right fun ho => not_lt.mpr ho hc

theorem populate_overgrown {w : World} (hvoid : w.stream.Void) :
    ∃ v, (Operation.populate 1 .always 63 .even).act w = .error .sumOverflow v ∧
      v.pool.genes.current = Int64.minValue ∧ v.pool.genes.low = 0 ∧ v.pool.held = 0 :=
  seed_overgrown 0 .even (g := ⟨.always, 63, none, .template⟩) rfl rfl rfl (le_refl _) hvoid

/-! ## Courses -/

theorem tallied_courses : ∀ {ops : List Operation} {w : World}, w.pool.Tallied → InPlay ops w →
    (courses ops w).pool.Tallied ∧
      (w.pool.genes.Ordered → (courses ops w).pool.genes.Ordered ∨ Overgrown ops w) ∧
      ((courses ops w).pool.genes.Ordered ∨ Unsettled ops w ∨ Overgrown ops w)
  | [], _, ht, _ => ⟨ht, .inl, .inr (.inl trivial)⟩
  | op :: ops, w, ht, ⟨hc, hi⟩ => by
    have hop := upkeep_operation op ht
    -- the next operation starts from what is left, also after a fault
    obtain ⟨hend, hordered, hany⟩ := tallied_courses (tallied_operation op ht hc) hi
    refine ⟨hend, fun ho => ?_, ?_⟩
    · rcases hop.ordered ho with ho | hr
      · exact (hordered ho).imp_right .inr
      · exact hany.imp_right (Or.imp_left fun hu => ⟨hr, hu⟩)
    -- an operation that settles the marks makes up for what came before it
    · by_cases hs : op.Settles w
      · exact (hordered (hop.settled hs)).imp_right fun ho => .inr (.inr ho)
      · exact hany.imp_right (Or.imp (fun hu => ⟨hs, hu⟩) .inr)

/-- The empty pool is sound, and a sound pool is sound after any course of operations. A
seeding that grows more genes than can be counted spoils the count of genes only, and only until
the marks are set to the counts again. -/
theorem sound_courses : ({} : Pool).Sound ∧ ∀ (ops : List Operation) (w : World), w.pool.Sound →
    InPlay ops w → (courses ops w).pool.Sound ∨
      Overgrown ops w ∧ (courses ops w).pool.Tallied := by
  refine ⟨sound_empty _, fun ops w h hi => ?_⟩
  obtain ⟨ht, hg, -⟩ := tallied_courses h.tallied hi
  rcases hg h.genes_ordered with ho | hr
  · exact .inl (sound_iff.mpr ⟨ht, ho⟩)
  · exact .inr ⟨hr, ht⟩

/-- The marks are reset after an overgrown seeding, and a creature is put in and taken out again. -/
theorem sound_put_get :
    let ops : List Operation := [.populate 1 .always 63 .even, .resetMarks, .put .merge, .get .any]
    InPlay ops default ∧ (courses ops default).pool.Sound := by
  intro ops
  -- the world gets a name, so that nothing is grown by the kernel
  obtain ⟨w, hw⟩ : ∃ w : World, w = default := ⟨_, rfl⟩
  rw [← hw]
  have hs : w.pool.Sound := hw ▸ sound_empty _
  obtain ⟨a, ha, -, -, hempty⟩ := populate_overgrown (w := w) (hw ▸ rfl)
  have hza : a.pool.held.card = 0 := by rw [hempty]; rfl
  have hta : a.pool.Tallied := by
    have hkept := tallied_operation (.populate 1 .always 63 .even) hs.tallied
    rw [ha] at hkept
    exact hkept (show a.pool.held.card < 2 ^ 63 by omega)
  obtain ⟨b, hb, hpool⟩ : ∃ b, Operation.resetMarks.act a = .ok () b ∧
      b.pool = a.pool.resetMarks :=
    ⟨{ notified a with pool := (notified a).pool.resetMarks }, rfl, by rw [notified_pool]⟩
  have htb : b.pool.Tallied := hpool ▸ hta.resetMarks
  have hheld : b.pool.held = 0 := by rw [hpool]; exact hempty
  obtain ⟨u, v, hv⟩ := put_done htb (by rw [hheld]; decide) .merge
  obtain ⟨hg, -, -⟩ := of_put_ok htb.filed hv
  have hcard : v.pool.held.card = 1 := by
    rw [hg.held, Multiset.card_cons, hheld]
    rfl
  obtain ⟨x, t, ht⟩ := take_done (hg.tallied htb) .any
  obtain ⟨hx, -, -⟩ := of_take_ok hg.filed ht
  have hle : t.pool.held.card ≤ 1 := hcard ▸ hx.card_le
  have hget : (Operation.get .any).act v = .ok ⟨⟩ t := bind_ok ht
  have hput : (Operation.put .merge).act b = .ok u v := hv
  have hi : InPlay ops w := by
    have hzb : b.pool.held.card = 0 := by rw [hheld]; rfl
    simp only [ops, InPlay, ha, hb, hput, reached, hget]
    exact ⟨by omega, by omega, by omega, by omega, trivial⟩
  refine ⟨hi, (sound_courses.2 ops w hs hi).resolve_right fun ⟨ho, _⟩ => ?_⟩
  simp [ops, Overgrown, Unsettled, Operation.Settles, Operation.Overruns, Operation.seeds] at ho

/-- The creature has more genes than can be counted, and the count has wrapped below its mark. -/
theorem unsound_overgrown :
    let ops : List Operation := [.populate 1 .always 63 .even]
    (default : World).pool.Sound ∧ InPlay ops default ∧
      (courses ops default).pool.genes.current = Int64.minValue ∧
      (courses ops default).pool.genes.low = 0 ∧ ¬ (courses ops default).pool.Sound := by
  intro ops
  obtain ⟨w, hw⟩ : ∃ w : World, w = default := ⟨_, rfl⟩
  rw [← hw]
  obtain ⟨v, hv, hcurrent, hlow, hempty⟩ := populate_overgrown (w := w) (hw ▸ rfl)
  have hend : courses ops w = v := by
    simp only [ops, courses, hv]
    rfl
  have hplay : InPlay ops w := by
    simp only [ops, InPlay, hv]
    refine ⟨?_, trivial⟩
    show v.pool.held.card < 2 ^ 63
    rw [hempty]
    decide
  rw [hend]
  refine ⟨hw ▸ sound_empty _, hplay, hcurrent, hlow, fun h => ?_⟩
  have hmark := h.genes_ordered.low_le
  rw [hcurrent, hlow] at hmark
  exact absurd hmark (by decide)

end Pool

end Biotope
