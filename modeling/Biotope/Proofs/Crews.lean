import Mathlib
import Biotope.Evolution.Engine

/-!
# Crews

A crew gets another worker, loses one, or is told to exit. What matters of it is how many of
its workers are alive.
-/

namespace Biotope

namespace Crew

theorem alive_le (c : Crew) : c.alive ≤ c.workers.length := List.count_le_length

theorem exits_iff {c : Crew} {index : Nat} {fault : Option Fault} :
    c.exits index fault = true ↔
      c.workers[index]? = some true ∧ (fault.isSome = true ∨ c.cancelled = true) := by
  simp [exits]

@[simp]
theorem alive_spawn (c : Crew) : c.spawn.alive = c.alive + 1 := by
  simp [alive, spawn, List.count_append]

@[simp]
theorem length_spawn (c : Crew) : c.spawn.workers.length = c.workers.length + 1 := by
  simp [spawn]

@[simp]
theorem length_exit (c : Crew) (index : Nat) :
    (c.exit index).workers.length = c.workers.length := List.length_set

theorem alive_exit {c : Crew} {index : Nat} (h : c.workers[index]? = some true) :
    (c.exit index).alive + 1 = c.alive := by
  obtain ⟨hlt, hget⟩ := List.getElem?_eq_some_iff.mp h
  have hpos : 0 < c.workers.count true := List.count_pos_iff.mpr (hget ▸ List.getElem_mem hlt)
  simp only [alive, exit, List.count_set hlt, hget]
  simp
  omega

theorem alive_exit_le (c : Crew) (index : Nat) : (c.exit index).alive ≤ c.alive := by
  rcases Nat.lt_or_ge index c.workers.length with h | h
  · simp only [alive, exit, List.count_set h]
    simp
  · rw [alive, exit, List.set_eq_of_length_le h]
    exact le_rfl

theorem exit_of_ne {c : Crew} {index : Nat} (h : c.workers[index]? ≠ some true) :
    c.exit index = c := by
  rcases Nat.lt_or_ge index c.workers.length with hlt | hge
  · have hget : c.workers[index] = false := by
      rw [List.getElem?_eq_getElem hlt] at h
      simpa using h
    rw [exit, ← hget, List.set_getElem_self]
  · rw [exit, List.set_eq_of_length_le hge]

/-- After the exits only others are alive. -/
theorem of_foldl_exit {c : Crew} {indices : List Nat} {i : Nat}
    (h : (indices.foldl exit c).workers[i]? = some true) :
    c.workers[i]? = some true ∧ i ∉ indices := by
  induction indices generalizing c with
  | nil => exact ⟨h, List.not_mem_nil⟩
  | cons index indices ih =>
    obtain ⟨hi, hnot⟩ := ih h
    have hne : index ≠ i := by
      rintro rfl
      rw [exit, List.getElem?_set_self'] at hi
      cases hget : c.workers[index]? <;> rw [hget] at hi <;> cases hi
    rw [exit, List.getElem?_set_ne hne] at hi
    exact ⟨hi, fun hmem => (List.mem_cons.mp hmem).elim (fun h => hne h.symm) hnot⟩

theorem exists_alive {c : Crew} (h : c.alive ≠ 0) :
    ∃ index : Nat, c.workers[index]? = some true := by
  have hmem : true ∈ c.workers := List.count_pos_iff.mp (Nat.pos_of_ne_zero h)
  obtain ⟨index, hlt, hget⟩ := List.mem_iff_getElem.mp hmem
  exact ⟨index, List.getElem?_eq_some_iff.mpr ⟨hlt, hget⟩⟩

/-! ## Crews in a list -/

theorem getD_append (cs : List Crew) (j : Nat) :
    (cs ++ [empty]).getD j .empty = cs.getD j .empty := by
  simp only [List.getD_eq_getElem?_getD]
  rcases lt_trichotomy j cs.length with h | h | h
  · rw [List.getElem?_append_left h]
  · rw [List.getElem?_append_right h.ge, List.getElem?_eq_none h.ge]
    simp [h]
  · rw [List.getElem?_eq_none (by simp; omega), List.getElem?_eq_none h.le]

theorem getD_modify_self {cs : List Crew} {k : Nat} (hk : k < cs.length) (f : Crew → Crew) :
    (cs.modify k f).getD k .empty = f (cs.getD k .empty) := by
  simp [List.getD_eq_getElem?_getD, hk]

theorem getD_modify_of_ne {j k : Nat} (h : j ≠ k) (cs : List Crew) (f : Crew → Crew) :
    (cs.modify k f).getD j .empty = cs.getD j .empty := by
  simp [List.getD_eq_getElem?_getD, h.symm]

theorem allAlive_cons (c : Crew) (cs : List Crew) :
    allAlive (c :: cs) = c.alive + allAlive cs := by
  rw [allAlive, List.flatMap_cons, List.count_append, allAlive, alive]

theorem allAlive_append (cs : List Crew) : allAlive (cs ++ [empty]) = allAlive cs := by
  rw [allAlive, List.flatMap_append, List.count_append]
  rfl

theorem allAlive_eq_zero {cs : List Crew} (h : ∀ c ∈ cs, c.alive = 0) : allAlive cs = 0 := by
  refine List.count_eq_zero.mpr fun hmem => ?_
  obtain ⟨c, hc, hworker⟩ := List.mem_flatMap.mp hmem
  exact List.count_eq_zero.mp (h c hc) hworker

theorem allAlive_modify {cs : List Crew} {k : Nat} (hk : k < cs.length) (f : Crew → Crew) :
    allAlive (cs.modify k f) + (cs.getD k .empty).alive =
      allAlive cs + (f (cs.getD k .empty)).alive := by
  induction cs generalizing k with
  | nil => simp at hk
  | cons c cs ih =>
    cases k with
    | zero =>
      simp only [List.modify_zero_cons, allAlive_cons, List.getD_cons_zero]
      omega
    | succ k =>
      have := ih (Nat.lt_of_succ_lt_succ hk)
      simp only [List.modify_succ_cons, allAlive_cons, List.getD_cons_succ]
      omega

end Crew

end Biotope
