import Gamebook.Text.Numeral
set_option autoImplicit false

/-!
# Rooms

A room has a text to show and transitions that lead out of it: an ending, or
choices that name the room they lead to.  A choice with a weight is drawn by
lot, a choice without one is for the reader to make.
-/

namespace Gamebook

/-- How a story ends. -/
inductive Outcome where
  | success
  | failure
  deriving DecidableEq, Repr, Inhabited

/-- A way to another room. -/
structure Choice where
  /-- What the reader is told about it. -/
  text : Text
  /-- The id of the room it leads to. -/
  target : Text
  /-- The weight as it is written, if there is one. -/
  weightText? : Option Text
  deriving DecidableEq, Repr, Inhabited

/-- A way out of a room. -/
inductive Transition where
  /-- The story ends. -/
  | ending (outcome : Outcome)
  /-- The story goes on in another room. -/
  | choice (choice : Choice)
  deriving DecidableEq, Repr, Inhabited

/-- A room of a story. -/
structure Room where
  id : Text
  title : Text
  description : Text
  transitions : List Transition
  deriving DecidableEq, Repr, Inhabited

/-! ## Weights -/

/-- The weight that a plain numeral stands for: none if the text is no numeral or
the number is negative. -/
def weightOfText (s : Text) : Except Overlong (Option Nat) :=
  match Text.plainNumeral? s with
  | none => .ok none
  | some (negative, digits) =>
    match Text.convert digits with
    | .error e => .error e
    | .ok n => .ok (if negative && n != 0 then none else some n)

/-- What weights add up to. -/
def totalWeight : List Nat → Nat
  | [] => 0
  | w :: rest => w + totalWeight rest

namespace Choice

/-- The choice is drawn by lot. -/
def isWeighted (c : Choice) : Bool := c.weightText?.isSome

/-- The weight of a choice: none if it has none, or one that is no natural
number. -/
def weight (c : Choice) : Except Overlong (Option Nat) :=
  match c.weightText? with
  | none => .ok none
  | some s => weightOfText s

end Choice

/-! ## The ways out of a room -/

namespace Transition

/-- The transition ends the story. -/
def isEnding : Transition → Bool
  | .ending _ => true
  | .choice _ => false

/-- The choice that a transition is. -/
def choice? : Transition → Option Choice
  | .ending _ => none
  | .choice c => some c

/-- The outcome of transitions that leave nothing but an ending. -/
def ending? : List Transition → Option Outcome
  | [.ending outcome] => some outcome
  | _ => none

/-- The choices for the reader to make, in order. -/
def manual (ts : List Transition) : List Choice :=
  (ts.filterMap choice?).filter fun c => !c.isWeighted

/-- The choices to be drawn by lot, in order. -/
def weighted (ts : List Transition) : List Choice :=
  (ts.filterMap choice?).filter fun c => c.isWeighted

end Transition

end Gamebook
