import Gamebook.Twister
set_option autoImplicit false

/-!
# Dice

Whatever answers a demand for a number below a bound, and keeps a state in
between.  The rules of play hold for all dice; the console plays with a Mersenne
twister.
-/

namespace Gamebook

/-- Dice with states of type `σ`: `roll bound state` is the number that comes up
and the state after it. -/
structure Dice (σ : Type) where
  roll : Nat → σ → Int × σ

namespace Dice

/-- Every roll below a positive bound is in the range from zero to the bound. -/
def Fair {σ : Type} (dice : Dice σ) : Prop :=
  ∀ (bound : Nat) (state : σ), 0 < bound →
    0 ≤ (dice.roll bound state).1 ∧ (dice.roll bound state).1 < bound

/-- The dice of a Mersenne twister. -/
def twister : Dice Twister where
  roll bound t :=
    let (n, t) := t.below bound
    (n, t)

theorem twister_fair : twister.Fair := by
  intro bound t h
  have hlt := Twister.below_lt h t
  simp only [twister]
  omega

end Dice

end Gamebook
