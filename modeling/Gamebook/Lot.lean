import Gamebook.Dice
import Gamebook.Room
set_option autoImplicit false

/-!
# Drawing lots

Among weighted choices one roll decides: a roll below the sum of the weights
falls to the first choice up to which the weights add up to more than it.
-/

namespace Gamebook.Lot

/-- The weights of choices, in order: none as soon as one of them is no natural
number. -/
def weights? : List Choice → Except Overlong (Option (List Nat))
  | [] => .ok (some [])
  | c :: rest =>
    match c.weight with
    | .error e => .error e
    | .ok none => .ok none
    | .ok (some w) =>
      match weights? rest with
      | .error e => .error e
      | .ok none => .ok none
      | .ok (some ws) => .ok (some (w :: ws))

/-- The target of the first choice up to which the weights, counted on from
`sum`, add up to more than the roll. -/
def winner? (roll : Int) (sum : Nat) : List (Choice × Nat) → Option Text
  | [] => none
  | (c, w) :: rest => if roll < sum + w then some c.target else winner? roll (sum + w) rest

/-- The target that the lot falls to.  Nothing is rolled, and there is no target,
without weighted choices, with a weight that is no natural number, and when the
weights add up to nothing. -/
def draw {σ : Type} (dice : Dice σ) (ts : List Transition) (state : σ) :
    Except Overlong (Option Text) × σ :=
  match Transition.weighted ts with
  | [] => (.ok none, state)
  | cs =>
    match weights? cs with
    | .error e => (.error e, state)
    | .ok none => (.ok none, state)
    | .ok (some ws) =>
      if totalWeight ws < 1 then (.ok none, state)
      else
        let (roll, state) := dice.roll (totalWeight ws) state
        (.ok (winner? roll 0 (cs.zip ws)), state)

end Gamebook.Lot
