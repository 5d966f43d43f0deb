import Gamebook.Console
import Gamebook.Session
import Gamebook.Text.Lowercase
set_option autoImplicit false

/-!
# Questions to the reader

What the reader types in answer to a prompt, and how often a prompt is repeated.
-/

namespace Gamebook

/-! ## Answers -/

/-- A word or a path, as it is typed. -/
def answer (line : Text) : Text := Text.trim line

/-- The first character of an answer in lower case, if there is one. -/
def initial (line : Text) : Text := ((Text.trim line).take 1).map Text.lower

/-- An integer between two bounds. -/
def integerWithin? (least greatest : Int) (line : Text) : Option Int :=
  match Text.typedInteger? (Text.trim line) with
  | some n => if least ≤ n ∧ n ≤ greatest then some n else none
  | none => none

/-- What the reader can do in a room that leaves a choice. -/
inductive Action where
  /-- Make the choice with this number. -/
  | choose (index : Nat)
  /-- Give up. -/
  | quit
  /-- Save a bookmark and leave. -/
  | bookmark
  deriving DecidableEq, Repr, Inhabited

/-- The number that stands for giving up. -/
def quitNumber : Int := -1

/-- The number that stands for saving a bookmark. -/
def bookmarkNumber : Int := -2

/-- The action that a line asks for, when there are so many choices. -/
def action? (count : Nat) (line : Text) : Option Action :=
  (integerWithin? bookmarkNumber (count - 1) line).map fun n =>
    if n = quitNumber then .quit
    else if n = bookmarkNumber then .bookmark
    else .choose n.toNat

/-! ## Prompts -/

/-- The prompt for an action. -/
def actionPrompt : Text := "Choose: ".toList

/-- What is said to a line that is no answer. -/
def invalidAnswer : Text := "Invalid value.".toList

/-- A question by itself: it is open, or has an answer. -/
inductive Question (A : Type) where
  | asking
  | answered (answer : Except Fault A)

/-- The turns of a question, which is asked until a line is an answer. -/
def Question.turn {A : Type} (prompt : Text) (read : Text → Option A) :
    Question A → Turn (Question A) (Except Fault A)
  | .asking =>
    .ask prompt fun
      | none => ([], .answered (.error .endOfInput))
      | some line =>
        match read line with
        | some a => ([], .answered (.ok a))
        | none => ([invalidAnswer], .asking)
  | .answered a => .stop a

end Gamebook
