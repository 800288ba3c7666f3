import Biotope.Proofs.Circulation

/-!
# Workers on a live pool

In every generation a worker takes a creature and brings it back before the operands
follow. So a pool that holds something holds something after every generation, and the
next one finds a creature again.
-/

namespace Biotope

open Act Gene

namespace Pool

/-! ## Requests -/

theorem assign_chance {w : World} (h : w.service = .chance) (id : SpeciesId) :
    assign id w = .ok (some id) w := by
  unfold assign
  by_cases hid : (!id.isAny) = true
  · rw [if_pos hid]
    rfl
  · rw [if_neg hid, bind_ok (show (get : Act World) w = .ok w w from rfl), h]
    rfl

theorem request_chance {w : World} (hc : w.service = .chance) (hd : w.drill = none)
    (id : SpeciesId) : request id w = take id w := by
  unfold request
  rw [bind_ok (assign_chance hc id)]
  exact bind_ok (rehearse_none hd)

end Pool

namespace Program

/-! ## Returning operands -/

theorem held_returnAll : ∀ {gs : List Gene} {w v : World}, Pool.Filed w.pool.buckets →
    returnAll gs w = .ok () v → w.pool.held ≤ v.pool.held
  | [], w, v, _, h => by
    obtain ⟨-, rfl⟩ := of_pure_ok h
    exact le_refl _
  | g :: gs, w, v, hf, h => by
    unfold returnAll at h
    obtain ⟨_, t, ht, h⟩ := of_bind_ok h
    cases ht
    obtain ⟨_, u, hu, h⟩ := of_bind_ok h
    obtain ⟨hg, -, -⟩ := Pool.of_put_ok (w := { w with stack := gs }) hf hu
    calc w.pool.held ≤ g ::ₘ w.pool.held := Multiset.le_cons_self _ _
      _ = u.pool.held := hg.held.symm
      _ ≤ v.pool.held := held_returnAll hg.filed h

theorem held_reset {w v : World} (hf : Pool.Filed w.pool.buckets) (h : reset w = .ok () v) :
    w.pool.held ≤ v.pool.held :=
  held_returnAll hf ((bind_ok rfl).symm.trans h)

end Program

namespace Evolution

/-! ## One generation -/

theorem of_generation_found {w u v : World} {c : Gene} {found : Bool}
    (hu : Pool.request .any w = .ok (some c) u) (h : generation w = .ok found v) :
    found = true ∧ ∃ r s t, Program.run c u = .ok () r ∧ Pool.put c r = .ok () s ∧
      countGeneration s = .ok () t ∧ Program.reset t = .ok () v := by
  unfold generation at h
  rw [bind_ok hu] at h
  obtain ⟨_, r, hr, h⟩ := of_bind_ok h
  obtain ⟨_, s, hs, h⟩ := of_bind_ok h
  obtain ⟨_, t, ht, h⟩ := of_bind_ok h
  obtain ⟨_, x, hx, h⟩ := of_bind_ok h
  obtain ⟨rfl, rfl⟩ := of_pure_ok h
  exact ⟨rfl, r, s, t, hr, hs, ht, hx⟩

/-- The steps of a generation from `w` to `v`: the creature is taken, runs and is put back, the
generation is counted, and the operands follow. -/
structure Turn (c : Gene) (w u r s t v : World) : Prop where
  taken : Pool.request .any w = .ok (some c) u
  lost : w.pool.held = c ::ₘ u.pool.held
  run : Program.run c u = .ok () r
  returned : Pool.put c r = .ok () s
  gained : s.pool.held = c ::ₘ r.pool.held
  counted : countGeneration s = .ok () t
  emptied : Program.reset t = .ok () v

theorem pool_countGeneration {w v : World} (h : countGeneration w = .ok () v) :
    v.pool = w.pool := by
  rw [countGeneration_eq] at h
  split at h
  · cases h
    rfl
  · cases h

structure Live (n : Nat) (w : World) : Prop where
  ready : Ready w 0
  chance : w.service = .chance
  held : w.pool.held ≠ 0
  stack : w.stack = []
  count : w.generations.current.toInt = n

section
variable {n : Nat} {w : World}

theorem Live.request (h : Live n w) : ∃ c u, Pool.request .any w = .ok (some c) u := by
  obtain ⟨c, hc⟩ := Multiset.exists_mem_of_ne_zero h.held
  obtain ⟨g, u, hu, -⟩ := Pool.take_some h.ready.sound.tallied hc (.inl rfl)
  rw [Pool.request_chance h.chance h.ready.drill]
  exact ⟨g, u, hu⟩

theorem Live.turn (h : Live n w) {v : World} {found : Bool} (hv : generation w = .ok found v) :
    ∃ c u r s t, Turn c w u r s t v ∧ Pool.Filed s.pool.buckets := by
  obtain ⟨c, u, hu⟩ := h.request
  obtain ⟨-, r, s, t, hr, hs, ht, hx⟩ := of_generation_found hu hv
  have hlost : w.pool.held = c ::ₘ u.pool.held := by
    have htake := Pool.request_chance h.chance h.ready.drill .any ▸ hu
    obtain ⟨htaken, -, -⟩ := Pool.of_take_ok h.ready.sound.filed htake
    cases htaken with
    | some _ hlost => exact hlost.held
  have hready : Ready u c.opcodes := by
    obtain ⟨x, u', hu', hbal, -⟩ := balanced_request .any w h.ready
    cases hu.symm.trans hu'
    exact hbal.ready h.ready
  have hsound : r.pool.Sound := by
    have hrun := (Program.balanced_run c).frame c.opcodes
    rw [zero_add] at hrun
    obtain ⟨_, r', hr', hbal, -⟩ := hrun u hready
    cases hr.symm.trans hr'
    exact hbal.sound
  obtain ⟨hgained, -, -⟩ := Pool.of_put_ok hsound.filed hs
  exact ⟨c, u, r, s, t, ⟨hu, hlost, hr, hs, hgained.held, ht, hx⟩, hgained.filed⟩

/-- The creature is back in the pool before the operands are, which only add to it. -/
theorem Live.held_generation (h : Live n w) {v : World} {found : Bool}
    (hv : generation w = .ok found v) : v.pool.held ≠ 0 := by
  obtain ⟨c, u, r, s, t, hturn, hfiled⟩ := h.turn hv
  have hpool := pool_countGeneration hturn.counted
  have hle : s.pool.held ≤ v.pool.held := by
    rw [← hpool]
    exact Program.held_reset (hpool ▸ hfiled) hturn.emptied
  intro hzero
  rw [hzero, Multiset.le_zero, hturn.gained] at hle
  exact Multiset.cons_ne_zero hle

theorem generation_live (h : Live n w) (hn : n + 1 < 2 ^ 63) :
    ∃ v, generation w = .ok true v ∧ Live (n + 1) v := by
  obtain ⟨c, u, hu⟩ := h.request
  have hlived := generation_lived h.ready
  cases hv : generation w with
  | error f v =>
    rw [hv] at hlived
    cases hlived with
    | uncounted _ hmax =>
      have hcount := h.count
      rw [hmax, Gauge.maxValue_toInt] at hcount
      omega
  | ok found v =>
    obtain ⟨rfl, -⟩ := of_generation_found hu hv
    rw [hv] at hlived
    cases hlived with
    | done hbal hinc hstack =>
      refine ⟨v, rfl, hbal.ready h.ready, hbal.chance h.chance, h.held_generation hv, hstack, ?_⟩
      rw [(Gauge.increment_of_ok hinc).1, h.count]
      push_cast
      rfl

end

/-! ## A whole life -/

def after (k : Nat) (w : World) : World := reached (generations k w)

theorem generations_succ {w v : World} (h : generation w = .ok true v) (k : Nat) :
    generations (k + 1) w = generations k v := by
  rw [generations, bind_ok h]
  rfl

theorem after_succ {w v : World} (h : generation w = .ok true v) (k : Nat) :
    after (k + 1) w = after k v :=
  congrArg reached (generations_succ h k)

theorem generations_live : ∀ (k : Nat) {n : Nat} {w : World}, Live n w → n + k < 2 ^ 63 →
    generations k w = .ok () (after k w) ∧ Live (n + k) (after k w)
  | 0, _, _, h, _ => ⟨rfl, h⟩
  | k + 1, n, w, h, hn => by
    obtain ⟨v, hv, hlive⟩ := generation_live h (by omega)
    obtain ⟨hrun, hend⟩ := generations_live k hlive (by omega)
    refine ⟨?_, ?_⟩
    · rw [generations_succ hv, after_succ hv]
      exact hrun
    · rw [after_succ hv, Nat.add_comm k, ← Nat.add_assoc]
      exact hend

theorem generation_after : ∀ (k : Nat) {n : Nat} {w : World}, Live n w → n + k + 1 < 2 ^ 63 →
    generation (after k w) = .ok true (after (k + 1) w)
  | 0, n, w, h, hn => by
    obtain ⟨v, hv, -⟩ := generation_live h (by omega)
    rw [after_succ hv]
    exact hv
  | k + 1, n, w, h, hn => by
    obtain ⟨v, hv, hlive⟩ := generation_live h (by omega)
    rw [after_succ hv, after_succ hv]
    exact generation_after k hlive (by omega)

/-- A worker on a sound pool that holds something lives through as many generations as can be
counted. In each of them it takes a creature, runs it and brings it back, and at the end of each
no operand is left and the pool is sound and holds something. -/
theorem generations_thrive (w : World) (n : Nat) (hs : w.pool.Sound) (hheld : w.pool.held ≠ 0)
    (hfits : w.size < 2 ^ 63 - 1) (hstack : w.stack = []) (hcount : w.generations.current = 0)
    (hchance : w.service = .chance) (hdrill : w.drill = none) (hn : n < 2 ^ 63) :
    generations n w = .ok () (after n w) ∧ (after n w).generations.current.toInt = n ∧
      ∀ k < n, (∃ c u r s t, Turn c (after k w) u r s t (after (k + 1) w)) ∧
        generation (after k w) = .ok true (after (k + 1) w) ∧ (after (k + 1) w).stack = [] ∧
        (after (k + 1) w).pool.Sound ∧ (after (k + 1) w).pool.held ≠ 0 := by
  have hlive : Live 0 w := by
    refine ⟨⟨hs, hdrill, ?_⟩, hchance, hheld, hstack, ?_⟩
    · rwa [add_zero, w.card_opcodes]
    · rw [hcount]
      rfl
  obtain ⟨hrun, hend⟩ := generations_live n hlive (by omega)
  refine ⟨hrun, ?_, ?_⟩
  · have hcurrent := hend.count
    rwa [Nat.zero_add] at hcurrent
  · intro k hk
    obtain ⟨-, hnow⟩ := generations_live k hlive (by omega)
    obtain ⟨-, hnext⟩ := generations_live (k + 1) hlive (by omega)
    have hgeneration := generation_after k hlive (by omega)
    obtain ⟨c, u, r, s, t, hturn, -⟩ := hnow.turn hgeneration
    exact ⟨⟨c, u, r, s, t, hturn⟩, hgeneration, hnext.stack, hnext.ready.sound, hnext.held⟩

/-- While the program runs that takes the other creature out, the pool is empty. -/
theorem generations_fetch :
    let program : Gene := .get (some .put)
    let p : Pool :=
      { buckets := [(program.species, ⟨#[program]⟩), (Gene.put.species, ⟨#[.put]⟩)]
        species := .ofValue 2, creatures := .ofValue 2 }
    let w : World := { stream := .seeded 7, pool := p }
    w.pool.Sound ∧ (after 2 w).generations.current = 2 ∧
      (∀ k < 2, ∃ c u r s t, Turn c (after k w) u r s t (after (k + 1) w)) ∧
      (after 2 w).pool.Sound ∧ (after 2 w).pool.held ≠ 0 ∧ (after 2 w).stack = [] := by
  intro program p w
  have hs : w.pool.Sound := by decide +kernel
  have hheld : w.pool.held ≠ 0 := by
    intro h
    have hcard : w.pool.held.card = 2 := rfl
    rw [h] at hcard
    cases hcard
  obtain ⟨-, hcount, hall⟩ := generations_thrive w 2 hs hheld (by decide) rfl rfl rfl rfl (by decide)
  obtain ⟨-, -, hstack, hsound, hlast⟩ := hall 1 (by decide)
  exact ⟨hs, Int64.toInt_inj.mp hcount, fun k hk => (hall k hk).1, hsound, hlast, hstack⟩

end Evolution

end Biotope
