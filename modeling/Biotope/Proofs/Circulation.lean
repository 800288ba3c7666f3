import Biotope.Evolution.Generation
import Biotope.Proofs.Balance

/-!
# Nothing gets lost

Programs take creatures apart, put them together and build new ones out of residents of
the pool. Every kind of gene is balanced, so programs are, and so are generations: the
opcodes in circulation stay the same.
-/

namespace Biotope

open Act Gene

namespace Program

/-! ## Pruning -/

mutual

theorem balanced_prune (p : Probability) : ∀ g, Balanced (prune p g) g.opcodes Gene.opcodes
  | .branch q left right => by
    unfold prune
    refine balanced_bind ({.branch} + opcodesSlot right) ?_ (balanced_pruneSlot p left) fun l => ?_
    · rw [opcodes_branch]; abel
    refine balanced_bind ({.branch} + opcodesSlot l) ?_ (balanced_pruneSlot p right) fun r => ?_
    · abel
    refine balanced_pure ?_
    rw [opcodes_branch]; abel
  | .sequence genes => by
    unfold prune
    refine balanced_bind {.sequence} ?_ (balanced_pruneAll p genes) fun gs => balanced_pure ?_
    · rw [opcodes_sequence]; abel
    · rw [opcodes_sequence]; abel
  | .chop _ | .copy _ | .get _ | .merge | .mutate _ | .put => by
    unfold prune
    exact balanced_pure rfl

theorem balanced_pruneSlot (p : Probability) : ∀ slot,
    Balanced (pruneSlot p slot) (opcodesSlot slot) opcodesSlot
  | none => by
    unfold pruneSlot
    exact balanced_pure rfl
  | some child => by
    unfold pruneSlot
    refine balanced_then (balanced_prune p child) fun c => ?_
    refine balanced_calm (Pool.calm_flip p) fun yes _ => balanced_ite ?_ (balanced_pure rfl)
    exact balanced_then (balanced_put c) fun _ => balanced_pure rfl

theorem balanced_pruneAll (p : Probability) : ∀ items,
    Balanced (pruneAll p items) (opcodesAll items) opcodesAll
  | [] => by
    unfold pruneAll
    exact balanced_pure rfl
  | item :: items => by
    unfold pruneAll
    refine balanced_bind (opcodesAll items) (opcodesAll_cons ..) (balanced_prune p item) fun c => ?_
    refine balanced_calm (Pool.calm_flip p) fun yes _ => balanced_ite ?_ ?_
    · refine balanced_bind (opcodesAll items) rfl (balanced_put c) fun _ => ?_
      rw [zero_add]
      exact balanced_pruneAll p items
    · refine balanced_bind c.opcodes (add_comm _ _) (balanced_pruneAll p items) fun gs => ?_
      refine balanced_pure ?_
      rw [opcodesAll_cons, add_comm]

end

/-! ## Replication -/

/-- A creature of the opcode is supplied, or none and nothing has changed. What is counted
of it may leave out the children that a creature of such a species must not have. -/
theorem balanced_supply (o : Opcode) {f : Gene → Multiset Opcode}
    (hle : ∀ g : Gene, g.opcode = o → f g ≤ g.opcodes)
    (heq : ∀ g : Gene, g.opcode = o → g.opcodes = {o} → f g = g.opcodes) :
    Balanced (supply o) 0 fun x => x.elim 0 f := by
  intro w hw
  obtain ⟨x, v, hv, hr⟩ := request_done o.species hw
  unfold supply
  rw [bind_ok hv]
  cases hr with
  | none h => exact ⟨none, v, rfl, h.balance hw, h.frame.generations⟩
  | @some g _ hg hid hb hs =>
    by_cases ho : g.opcode = o
    · refine ⟨some g, v, by simp only [if_pos ho]; rfl, hb.drop (hle g ho) fun hplain => ?_, hs⟩
      refine heq g ho ?_
      have hsize : ¬ 2 ≤ g.size := fun h2 =>
        hplain g hg h2 o (hid (SpeciesId.ofHash_ne_any _))
      rw [opcodes_of_size_lt (by omega), ho]
    · simp only [if_neg ho]
      obtain ⟨u, t, ht, hb', hs'⟩ := balanced_put g v (hb.ready hw.zero)
      exact ⟨none, t, bind_ok ht, hb.trans hb', hs'.trans hs⟩

theorem balanced_supply_lone (o : Opcode) :
    Balanced (supply o) 0 fun x => x.elim 0 fun _ => {o} :=
  balanced_supply o (fun g ho => Multiset.singleton_le.mpr (ho ▸ g.opcode_mem_opcodes))
    fun _ _ h => h.symm

theorem balanced_supply_whole (o : Opcode) : Balanced (supply o) 0 opcodesSlot := by
  have h := balanced_supply o (f := Gene.opcodes) (fun _ _ => le_refl _) fun _ _ _ => rfl
  have hslot : (fun x : Option Gene => x.elim 0 Gene.opcodes) = opcodesSlot := by
    funext x
    cases x <;> rfl
  rwa [hslot] at h

theorem opcodes_of_sequence {g : Gene} (h : g.opcode = .sequence) :
    {.sequence} + opcodesAll (itemsOf g) = g.opcodes := by
  cases g with
  | sequence gs => exact (opcodes_sequence gs).symm
  | _ => cases h

mutual

theorem balanced_replicate (p : Probability) : ∀ g, Balanced (replicate p g) 0 opcodesSlot
  | .branch q left right => by
    unfold replicate
    refine balanced_then (balanced_supply_lone .branch) fun x => ?_
    cases x with
    | none => exact balanced_pure rfl
    | some _ =>
      -- only the root of what was supplied goes on, the arms are copied
      refine balanced_bind {.branch} (zero_add _).symm (balanced_replicateSlot p left) fun l => ?_
      refine balanced_bind (opcodesSlot l + {.branch}) (zero_add _).symm
        (balanced_replicateSlot p right) fun r => balanced_pure ?_
      rw [opcodesSlot_some, opcodes_branch]
      abel
  | .chop _ | .copy _ | .mutate _ => by
    unfold replicate
    refine balanced_then (balanced_supply_lone _) fun x => ?_
    cases x with
    | none => exact balanced_pure rfl
    | some _ => exact balanced_pure (by simp)
  | .merge | .put => by
    unfold replicate
    exact balanced_supply_whole _
  | .get template => by
    unfold replicate
    refine balanced_then (balanced_supply_lone .get) fun x => ?_
    cases x with
    | none => exact balanced_pure rfl
    | some _ =>
      refine balanced_bind {.get} (zero_add _).symm (balanced_replicateTemplate p template)
        fun t => balanced_pure ?_
      rw [opcodesSlot_some, opcodes_get]
      abel
  | .sequence genes => by
    unfold replicate
    refine balanced_then (balanced_supply .sequence (f := fun g => {.sequence} + opcodesAll (itemsOf g))
      (fun g ho => (opcodes_of_sequence ho).le) fun g ho _ => opcodes_of_sequence ho) fun x => ?_
    cases x with
    | none => exact balanced_pure rfl
    | some fresh =>
      refine balanced_bind ({.sequence} + opcodesAll (itemsOf fresh)) (zero_add _).symm
        (balanced_replicateAll p genes) fun gs => balanced_pure ?_
      rw [opcodesSlot_some, opcodes_sequence, opcodesAll_append]
      abel

theorem balanced_replicateSlot (p : Probability) : ∀ slot,
    Balanced (replicateSlot p slot) 0 opcodesSlot
  | none => by
    unfold replicateSlot
    exact balanced_pure rfl
  | some child => by
    unfold replicateSlot
    exact balanced_calm (Pool.calm_flip p) fun _ _ =>
      balanced_ite (balanced_replicate p child) (balanced_pure rfl)

theorem balanced_replicateTemplate (p : Probability) : ∀ template,
    Balanced (replicateTemplate p template) 0 opcodesSlot
  | none => by
    unfold replicateTemplate
    exact balanced_pure rfl
  | some template => by
    unfold replicateTemplate
    exact balanced_replicate p template

theorem balanced_replicateAll (p : Probability) : ∀ items,
    Balanced (replicateAll p items) 0 opcodesAll
  | [] => by
    unfold replicateAll
    exact balanced_pure rfl
  | item :: items => by
    unfold replicateAll
    refine balanced_calm (Pool.calm_flip p) fun _ _ => balanced_ite ?_ (balanced_replicateAll p items)
    refine balanced_then (balanced_replicate p item) fun x => ?_
    cases x with
    | none => exact balanced_replicateAll p items
    | some copy =>
      refine balanced_bind copy.opcodes (zero_add _).symm (balanced_replicateAll p items) fun gs =>
        balanced_pure ?_
      rw [opcodesAll_cons, add_comm]

end

/-! ## Programs -/

theorem balanced_mergeTop : Balanced mergeTop 0 fun _ => 0 := by
  intro w hw
  unfold mergeTop
  match hs : w.stack with
  | [] => exact ⟨(), w, rfl, .refl hw, rfl⟩
  | [_] => exact ⟨(), w, rfl, .refl hw, rfl⟩
  | top :: next :: rest =>
    have hopcodes : opcodesAll ((graft top (next :: rest) w.stream).value ::
        (graft top (next :: rest) w.stream).stack) = opcodesAll w.stack := by
      rw [opcodesAll_cons, graft_opcodes, hs, opcodesAll_cons top]
    refine ⟨(), _, rfl, ⟨hw.sound, hw.drill, rfl, id, [], rfl, fun _ hg => .inl hg, ?_,
      fun _ _ => ?_⟩, rfl⟩ <;>
    · simp only [World.opcodes, hopcodes, le_refl]

mutual

theorem balanced_run : ∀ g, Balanced (run g) 0 fun _ => 0
  | .branch p left right => by
    unfold run
    exact balanced_calm (calm_draw _) fun _ _ =>
      balanced_ite (balanced_runSlot left) (balanced_runSlot right)
  | .chop p => by
    unfold run
    refine balanced_then balanced_pop fun x => ?_
    cases x with
    | none => exact balanced_pure rfl
    | some top => exact balanced_then (balanced_prune p top) fun g => balanced_push g
  | .copy p => by
    unfold run
    refine balanced_then balanced_pop fun x => ?_
    cases x with
    | none => exact balanced_pure rfl
    | some top =>
      -- the original is in the hand while its copy is made
      refine balanced_bind top.opcodes (zero_add _).symm (balanced_replicate p top) fun y => ?_
      refine balanced_bind (opcodesSlot y) (add_comm _ _) (balanced_push top) fun _ => ?_
      rw [zero_add]
      cases y with
      | none => exact balanced_pure rfl
      | some copy => exact balanced_push copy
  | .get none => by
    unfold run
    exact balanced_pure rfl
  | .get (some template) => by
    unfold run
    refine balanced_then (balanced_request _) fun x => ?_
    cases x with
    | none => exact balanced_pure rfl
    | some creature => exact balanced_push creature
  | .merge => by
    unfold run
    exact balanced_mergeTop
  | .mutate p => by
    unfold run
    refine balanced_then balanced_pop fun x => ?_
    cases x with
    | none => exact balanced_pure rfl
    | some top =>
      refine balanced_calm (calm_mutate p top) fun g hg => ?_
      rw [opcodesSlot_some, ← hg.opcodes_eq]
      exact balanced_push g
  | .put => by
    unfold run
    refine balanced_then balanced_pop fun x => ?_
    cases x with
    | none => exact balanced_pure rfl
    | some top => exact balanced_put top
  | .sequence genes => by
    unfold run
    exact balanced_runAll genes

theorem balanced_runSlot : ∀ slot, Balanced (runSlot slot) 0 fun _ => 0
  | none => by
    unfold runSlot
    exact balanced_pure rfl
  | some g => by
    unfold runSlot
    exact balanced_run g

theorem balanced_runAll : ∀ genes, Balanced (runAll genes) 0 fun _ => 0
  | [] => by
    unfold runAll
    exact balanced_pure rfl
  | g :: gs => by
    unfold runAll
    exact balanced_then (balanced_run g) fun _ => balanced_runAll gs

end

theorem returnAll_done : ∀ {gs : List Gene} {w : World}, w.stack = gs → Ready w 0 →
    ∃ v, returnAll gs w = .ok () v ∧ Balance w 0 v 0 ∧ v.generations = w.generations ∧
      v.stack = []
  | [], w, hs, hw => ⟨w, rfl, .refl hw, rfl, hs⟩
  | g :: gs, w, hs, hw => by
    have hpop := balance_pop hs hw
    obtain ⟨⟨⟩, u, hu, hput, hg⟩ := balanced_put g { w with stack := gs } (hpop.ready hw)
    have hstack : u.stack = gs :=
      (Pool.of_put_ok (w := { w with stack := gs }) hw.sound.filed hu).2.1.stack
    obtain ⟨v, hv, hrest, hg', hempty⟩ := returnAll_done hstack (hput.ready (hpop.ready hw))
    refine ⟨v, ?_, (hpop.trans hput).trans hrest, hg'.trans hg, hempty⟩
    unfold returnAll
    exact (bind_ok rfl).trans ((bind_ok hu).trans hv)

theorem reset_done {w : World} (hw : Ready w 0) :
    ∃ v, reset w = .ok () v ∧ Balance w 0 v 0 ∧ v.generations = w.generations ∧ v.stack = [] := by
  obtain ⟨v, hv, h⟩ := returnAll_done rfl hw
  exact ⟨v, (bind_ok rfl).trans hv, h⟩

end Program

namespace Evolution

/-! ## Generations -/

inductive Lived (w : World) : EStateM.Result Fault World Bool → Prop where
  /-- No creature was found. -/
  | idle {v : World} (h : Balance w 0 v 0) (hg : v.generations = w.generations)
      (hs : v.stack = []) : Lived w (.ok false v)
  | done {v : World} {n : Int64} (h : Balance w 0 v 0)
      (hg : Gauge.increment w.generations = .ok n v.generations) (hs : v.stack = []) :
      Lived w (.ok true v)
  | uncounted {v : World} (h : Balance w 0 v 0)
      (hg : w.generations.current = Int64.maxValue) : Lived w (.error .sumOverflow v)

theorem countGeneration_eq (w : World) : countGeneration w =
    match Gauge.increment w.generations with
    | .ok _ g => .ok () { w with generations := g }
    | .error f g => .error f { w with generations := g } := rfl

theorem generation_lived {w : World} (hw : Ready w 0) : Lived w (generation w) := by
  obtain ⟨x, u, hu, h₁, hg₁⟩ := balanced_request .any w hw
  unfold generation
  rw [bind_ok hu]
  cases x with
  | none =>
    obtain ⟨v, hv, h₂, hg₂, hs⟩ := Program.reset_done (h₁.ready hw)
    show Lived w ((Program.reset >>= fun _ => pure false) u)
    rw [bind_ok hv]
    exact .idle (h₁.trans h₂) (hg₂.trans hg₁) hs
  | some creature =>
    -- the creature is in the hand while it runs and is put back before anything is counted
    have hlive : Balanced (Program.run creature >>= fun _ => Pool.put creature) creature.opcodes
        fun _ => 0 :=
      balanced_bind creature.opcodes (zero_add _).symm (Program.balanced_run creature) fun _ =>
        (zero_add creature.opcodes).symm ▸ balanced_put creature
    obtain ⟨_, t, ht, h₂, hg₂⟩ := hlive u (h₁.ready hw)
    obtain ⟨_, r, hrun, hput⟩ := of_bind_ok ht
    have hsofar := h₁.trans h₂
    have hgen := hg₂.trans hg₁
    show Lived w ((Program.run creature >>= fun _ => Pool.put creature >>= fun _ =>
      countGeneration >>= fun _ => Program.reset >>= fun _ => pure true) u)
    rw [bind_ok hrun, bind_ok hput]
    cases hc : Gauge.increment t.generations with
    | ok n γ =>
      have hcount : countGeneration t = .ok () { t with generations := γ } := by
        rw [countGeneration_eq, hc]
      have hbal := hsofar.recount γ
      obtain ⟨v, hv, h₃, hg₃, hs⟩ := Program.reset_done (hbal.ready hw)
      rw [bind_ok hcount, bind_ok hv]
      refine .done (n := n) (hbal.trans h₃) ?_ hs
      rw [← hgen, hc, hg₃]
    | error f γ =>
      have hcount : countGeneration t = .error f { t with generations := γ } := by
        rw [countGeneration_eq, hc]
      obtain ⟨rfl, hmax⟩ := Gauge.increment_of_error hc
      rw [bind_error hcount]
      exact .uncounted (hsofar.recount γ) (hgen ▸ hmax)

end Evolution

/-! ## Processors and workers -/

inductive Job where
  | process (g : Gene)
  | reset
  | generation

def Job.act : Job → Act Unit
  | process g => Program.run g
  | reset => Program.reset
  | generation => discard Evolution.generation

def perform : List Job → Act Unit
  | [] => return
  | t :: ts => do
    t.act
    perform ts

/-- A job keeps the balance, and breaks off only if generations can no longer be counted. -/
theorem Job.balance (t : Job) {w : World} (hw : Ready w 0) :
    Balance w 0 (reached (t.act w)) 0 ∧ ∀ {f v}, t.act w = .error f v →
      f = .sumOverflow ∧ t = .generation ∧ w.generations.current = Int64.maxValue := by
  cases t with
  | process g =>
    obtain ⟨u, v, hv, h, -⟩ := Program.balanced_run g w hw
    rw [Job.act, hv]
    exact ⟨h, fun h => by cases h⟩
  | reset =>
    obtain ⟨v, hv, h, -⟩ := Program.reset_done hw
    rw [Job.act, hv]
    exact ⟨h, fun h => by cases h⟩
  | generation =>
    have h := Evolution.generation_lived hw
    rw [Job.act, discard_eq]
    cases hr : Evolution.generation w with
    | ok x v =>
      rw [bind_ok hr]
      refine ⟨?_, fun h => by cases h⟩
      rw [hr] at h
      cases h with
      | idle h _ _ => exact h
      | done h _ _ => exact h
    | error f v =>
      rw [bind_error hr]
      rw [hr] at h
      cases h with
      | uncounted h hmax => exact ⟨h, fun he => by cases he; exact ⟨rfl, rfl, hmax⟩⟩

/-- The jobs came to a generation that could not be counted. -/
def Uncounted (ts : List Job) (w : World) : Prop :=
  ∃ front rest v, ts = front ++ .generation :: rest ∧ perform front w = .ok () v ∧
    v.generations.current = Int64.maxValue

theorem perform_balance : ∀ (ts : List Job) {w : World}, Ready w 0 →
    Balance w 0 (reached (perform ts w)) 0 ∧ ∀ {f v}, perform ts w = .error f v →
      f = .sumOverflow ∧ Uncounted ts w
  | [], w, hw => ⟨.refl hw, fun h => by cases h⟩
  | t :: ts, w, hw => by
    obtain ⟨hb, hf⟩ := t.balance hw
    rw [perform]
    cases ht : t.act w with
    | error f v =>
      obtain ⟨rfl, rfl, hmax⟩ := hf ht
      rw [ht] at hb
      rw [bind_error ht]
      exact ⟨hb, fun he => by cases he; exact ⟨rfl, [], ts, w, rfl, rfl, hmax⟩⟩
    | ok x u =>
      rw [ht] at hb
      obtain ⟨hb', hf'⟩ := perform_balance ts (hb.ready hw)
      rw [bind_ok ht]
      refine ⟨hb.trans hb', fun he => ?_⟩
      obtain ⟨rfl, front, rest, v, rfl, hv, hmax⟩ := hf' he
      exact ⟨rfl, t :: front, rest, v, rfl, (bind_ok ht).trans hv, hmax⟩

/-- The creatures that were filed on the way from one world to a later one. -/
def filedSince (w v : World) : List Gene := v.filed.take (v.filed.length - w.filed.length)

def World.size (w : World) : Nat := (w.pool.held.map Gene.size).sum + sizeAll w.stack

theorem World.card_opcodes (w : World) : w.opcodes.card = w.size := by
  have hpool : w.pool.opcodes.card = (w.pool.held.map Gene.size).sum := by
    unfold Pool.opcodes
    induction w.pool.held using Multiset.induction_on with
    | empty => rfl
    | cons g s ih => simp [ih]
  rw [World.opcodes, Multiset.card_add, hpool, card_opcodesAll, World.size]

/-- Programs, resets and generations leave the opcodes in circulation and the count of
genes as they were, if all creatures that are held or come into the pool are plain. They
break off only when generations can no longer be counted, and nothing is in the hand
then. -/
theorem opcodes_perform (ts : List Job) (w : World) (hs : w.pool.Sound) (hd : w.drill = none)
    (hfits : w.size < 2 ^ 63 - 1) :
    (reached (perform ts w)).pool.genes = w.pool.genes ∧
    ((∀ g ∈ w.pool.held, Plain g) → (∀ g ∈ filedSince w (reached (perform ts w)), Plain g) →
      (reached (perform ts w)).opcodes = w.opcodes ∧
      (w.pool.genes.current.toInt = w.size →
        (reached (perform ts w)).pool.genes.current.toInt = (reached (perform ts w)).size)) ∧
    ∀ f v, perform ts w = .error f v → f = .sumOverflow ∧ Uncounted ts w := by
  have hw : Ready w 0 := ⟨hs, hd, by rw [add_zero, w.card_opcodes]; exact hfits⟩
  obtain ⟨hb, hf⟩ := perform_balance ts hw
  obtain ⟨new, hnew, -, -, heq⟩ := hb.kept
  refine ⟨hb.genes, fun hplain hfiled => ?_, fun f v => hf⟩
  have hsince : filedSince w (reached (perform ts w)) = new := by
    rw [filedSince, hnew, List.length_append, Nat.add_sub_cancel, List.take_left' rfl]
  have hopcodes : (reached (perform ts w)).opcodes = w.opcodes := by
    simpa using heq hplain (hsince ▸ hfiled)
  refine ⟨hopcodes, fun hcount => ?_⟩
  rw [hb.genes, hcount, ← w.card_opcodes, ← hopcodes, World.card_opcodes]

/-- A program takes a creature out of the pool, copies it, cuts the copy up and puts the rest back.
Then the operands follow, and one of the creatures runs. -/
theorem opcodes_perform_forage :
    let pack : Gene := .sequence [.put]
    let lone : Gene := .sequence []
    let p : Pool :=
      { buckets := [(lone.species, ⟨#[lone, lone]⟩), (Gene.put.species, ⟨#[.put, .put]⟩),
          (pack.species, ⟨#[pack, pack]⟩)]
        temperature := .always, genes := .ofValue 10, species := .ofValue 3, creatures := .ofValue 6 }
    let w : World := { stream := .seeded 7, pool := p, stack := [.get (some .merge)] }
    let program : Gene := .sequence [.get (some pack), .copy .always, .chop .always, .put]
    let v : World := reached (perform [.process program, .reset, .generation] w)
    w.pool.Sound ∧ (∀ g ∈ w.pool.held, Plain g) ∧ (∀ g ∈ filedSince w v, Plain g) ∧
      (filedSince w v).map Gene.size = [1, 2, 2, 1, 1] ∧ v.generations.current = 1 ∧
      v.opcodes = w.opcodes ∧ v.pool.genes.current.toInt = v.size := by
  intro pack lone p w program v
  have hs : w.pool.Sound := by decide +kernel
  have hheld : ∀ g ∈ w.pool.held, Plain g := by decide +kernel
  have hfiled : ∀ g ∈ filedSince w v, Plain g := by decide +kernel
  have hsizes : (filedSince w v).map Gene.size = [1, 2, 2, 1, 1] := by decide +kernel
  have hcount : v.generations.current = 1 := by decide +kernel
  obtain ⟨-, hkept, -⟩ :=
    opcodes_perform [.process program, .reset, .generation] w hs rfl (by decide +kernel)
  obtain ⟨hopcodes, hgenes⟩ := hkept hheld hfiled
  exact ⟨hs, hheld, hfiled, hsizes, hcount, hopcodes, hgenes (by decide +kernel)⟩

end Biotope
