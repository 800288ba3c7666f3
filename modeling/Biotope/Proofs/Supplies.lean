import Biotope.Program.Replication
import Biotope.Proofs.Climates
import Biotope.Proofs.Opcodes
import Biotope.Proofs.Shapes

/-!
# Supplies

A request for one species concerns its bucket and no other, in whatever state the pool is:
it misses and nothing changes, or the bucket has one creature less. A supply of raw
material is such a request, with the creature put back if it is of another opcode.
-/

namespace Biotope

open Act

namespace Pool

/-! ## One bucket -/

/-- The creatures that are filed under an identifier, whether they belong there or not. -/
def filedUnder (p : Pool) (id : SpeciesId) : Multiset Gene := ((p.find? id).getD {}).bag

theorem filedUnder_congr {p q : Pool} {id : SpeciesId} (h : p.find? id = q.find? id) :
    p.filedUnder id = q.filedUnder id := by
  rw [filedUnder, filedUnder, h]

theorem find?_eraseBucket_of_ne {i j : SpeciesId} (h : j ≠ i) (p : Pool) :
    (p.eraseBucket i).find? j = p.find? j := by
  unfold find? eraseBucket
  induction p.buckets with
  | nil => rfl
  | cons b bs ih =>
    by_cases hb : b.1 = i
    · have hj : (b.1 == j) = false := by simpa [hb] using h.symm
      rw [List.filter_cons_of_neg (by simp [hb]), ih, List.find?_cons_of_neg (by simp [hj])]
    · rw [List.filter_cons_of_pos (by simpa using hb), List.find?_cons, List.find?_cons]
      cases b.1 == j
      · exact ih
      · rfl

inductive Picked (id : SpeciesId) (p : Pool) : Option Gene → Pool → Prop where
  | missed (h : p.filedUnder id = 0) : Picked id p none p
  | served {g : Gene} {q : Pool} (h : p.filedUnder id = g ::ₘ q.filedUnder id)
      (hothers : ∀ j, j ≠ id → q.find? j = p.find? j) : Picked id p (some g) q

theorem Picked.eq_of_none {id : SpeciesId} {p q : Pool} : Picked id p none q → q = p
  | .missed _ => rfl

theorem Picked.cons_of_some {id : SpeciesId} {p q : Pool} {g : Gene} :
    Picked id p (some g) q → p.filedUnder id = g ::ₘ q.filedUnder id
  | .served h _ => h

theorem of_takeFrom_picked {id : SpeciesId} {s : Species} {w v : World} {x : Option Gene}
    (hs : w.pool.find? id = some s) (h : takeFrom id s w = .ok x v) :
    Picked id w.pool x v.pool := by
  have hbag : w.pool.filedUnder id = s.bag := by rw [filedUnder, hs, Option.getD_some]
  by_cases hempty : s.members = #[]
  · rw [takeFrom_of_empty hempty] at h
    cases h
    exact .missed (by rw [hbag, Species.bag, hempty]; rfl)
  · obtain ⟨g, rest, τ, hselect, hrest⟩ := Species.select_eq hempty w.stream
    rw [takeFrom_eq hselect] at h
    obtain rfl := of_release_ok h
    rcases brings_release id g rest _ with ⟨y, u, hu, hbs, -⟩ | ⟨f, u, hu, -⟩
    · cases hu.symm.trans h
      have hfind (j : SpeciesId) : v.pool.find? j = if j = id then
          (if rest.isExtinct then none else some rest) else w.pool.find? j := by
        by_cases hx : rest.isExtinct = true
        · rw [if_pos hx] at hbs
          rw [find?_congr hbs, if_pos hx]
          by_cases hj : j = id
          · rw [if_pos hj, hj, find?_eraseBucket]
          · rw [if_neg hj, find?_eraseBucket_of_ne hj, find?_setBucket, if_neg hj]
        · rw [if_neg hx] at hbs
          rw [find?_congr hbs, find?_setBucket, if_neg hx]
      refine .served ?_ fun j hj => by rw [hfind, if_neg hj]
      -- an extinct species has no bucket, and an empty bag all the same
      have hafter : v.pool.filedUnder id = rest.bag := by
        rw [filedUnder, hfind, if_pos rfl]
        by_cases hx : rest.isExtinct = true
        · rw [if_pos hx, bag_eq_zero_iff.mpr hx]
          rfl
        · rw [if_neg hx]
          rfl
      rw [hbag, hrest, hafter]
    · cases hu.symm.trans h

theorem of_take_picked {id : SpeciesId} (hid : id ≠ .any) {w v : World} {x : Option Gene}
    (h : take id w = .ok x v) : Picked id w.pool x v.pool := by
  rw [take_eq] at h
  have h := of_entering_ok h
  rw [bind_ok (a := getPool) rfl, notified_pool] at h
  by_cases he : w.pool.buckets.isEmpty = true
  · rw [if_pos he] at h
    cases h
    rw [notified_pool]
    refine .missed ?_
    rw [filedUnder, find?, List.isEmpty_iff.mp he]
    rfl
  · have hchosen := chosen_of_ne_any hid w.pool (notified w).stream
    rw [if_neg he, bind_ok (draw_ok hchosen)] at h
    unfold takeAt at h
    cases hs : w.pool.find? id with
    | none =>
      rw [hs] at h
      cases h
      show Picked id w.pool none (notified w).pool
      rw [notified_pool]
      exact .missed (by rw [filedUnder, hs]; rfl)
    | some s =>
      rw [hs] at h
      have hpicked := of_takeFrom_picked (by simpa using hs) h
      rwa [notified_pool] at hpicked

/-- A request for a species is a taking, from the pool as it is. -/
theorem of_request_ok {id : SpeciesId} (hid : id ≠ .any) {w v : World} {x : Option Gene}
    (h : request id w = .ok x v) : ∃ u, u.pool = w.pool ∧ take id u = .ok x v := by
  unfold request at h
  obtain ⟨y, u, hy, h⟩ := of_bind_ok h
  obtain ⟨y', u', hy', hundisturbed, hsome⟩ := calm_assign id w
  cases hy.symm.trans hy'
  obtain rfl := hsome hid
  obtain ⟨_, t, ht, h⟩ := of_bind_ok h
  obtain ⟨d, hd | ⟨m, hd⟩⟩ := rehearse_cases u
  · cases ht.symm.trans hd
    exact ⟨{ u with drill := d }, hundisturbed.pool, h⟩
  · cases ht.symm.trans hd

theorem of_request_picked {id : SpeciesId} (hid : id ≠ .any) {w v : World} {x : Option Gene}
    (h : request id w = .ok x v) : Picked id w.pool x v.pool := by
  obtain ⟨u, hu, ht⟩ := of_request_ok hid h
  exact hu ▸ of_take_picked hid ht

end Pool

namespace Program

/-! ## Raw material -/

inductive Supplied (o : Opcode) (w : World) : Option Gene → World → Prop where
  | missed {v : World} (h : Pool.request o.species w = .ok none v) : Supplied o w none v
  | fresh {g : Gene} {v : World} (h : Pool.request o.species w = .ok (some g) v)
      (ho : g.opcode = o) : Supplied o w (some g) v
  | returned {g : Gene} {u v : World} (h : Pool.request o.species w = .ok (some g) u)
      (ho : g.opcode ≠ o) (hput : Pool.put g u = .ok () v) : Supplied o w none v

theorem of_supply_ok {o : Opcode} {w v : World} {x : Option Gene} (h : supply o w = .ok x v) :
    Supplied o w x v := by
  unfold supply at h
  obtain ⟨y, u, hy, h⟩ := of_bind_ok h
  cases y with
  | none =>
    cases h
    exact .missed hy
  | some g =>
    by_cases ho : g.opcode = o
    · simp only [if_pos ho] at h
      cases h
      exact .fresh hy ho
    · simp only [if_neg ho] at h
      obtain ⟨_, t, ht, h⟩ := of_bind_ok h
      cases h
      exact .returned hy ho ht

theorem Supplied.opcode_eq {o : Opcode} {w v : World} {g : Gene} (h : Supplied o w (some g) v) :
    g.opcode = o := by
  cases h with
  | fresh _ ho => exact ho

theorem species_ne_any (o : Opcode) : o.species ≠ .any := SpeciesId.ofHash_ne_any _

/-- The lone genes are of eight different species. -/
theorem species_injective : Function.Injective Opcode.species := by
  have h : ∀ o ∈ Opcode.all, ∀ o' ∈ Opcode.all, o.species = o'.species → o = o' := by
    simp only [Opcode.species, Gene.species_forced]
    decide +kernel
  exact fun o o' => h o (Opcode.mem_all o) o' (Opcode.mem_all o')

end Program

end Biotope
