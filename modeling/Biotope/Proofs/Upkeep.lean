import Biotope.Proofs.Exchanges
import Biotope.Proofs.Mutation

/-!
# What programs keep

A program changes the pool by taking creatures out and putting creatures in, and in no
other way. A property that both operations keep is kept by every program on every
stack, whatever is tossed.
-/

namespace Biotope

open Act

/-- The property survives taking and putting, and suffices for an end without either. -/
structure Upheld (P : Pool → Prop) (E : Fault → Pool → Prop) : Prop where
  weaken : ∀ f p, P p → E f p
  take : ∀ id, Keeps P E (Pool.take id)
  put : ∀ g, Keeps P E (Pool.put g)

section
variable {P : Pool → Prop} {E : Fault → Pool → Prop} {α : Type} {a : Act α}

theorem Passive.keeps (ha : Passive a) (h : ∀ f p, P p → E f p) : Keeps P E a := by
  constructor
  · intro w v x hw hv
    have hp := (ha w).pool
    rw [hv] at hp
    exact hp ▸ hw
  · intro w v f hw hv
    have hp := (ha w).pool
    rw [hv] at hp
    exact h f _ (hp ▸ hw)

theorem Exchanges.keeps (ha : Exchanges a) (h : Upheld P E) : Keeps P E a := by
  induction ha with
  | passive ha => exact ha.keeps h.weaken
  | take id => exact h.take id
  | put g => exact h.put g
  | bind _ _ iha ihf => exact keeps_bind iha ihf

theorem Program.keeps_run (h : Upheld P E) (g : Gene) : Keeps P E (run g) :=
  (exchanges_run g).keeps h

theorem Program.keeps_reset (h : Upheld P E) : Keeps P E reset := exchanges_reset.keeps h

end

end Biotope
