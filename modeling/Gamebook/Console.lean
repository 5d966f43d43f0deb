import Gamebook.Text
set_option autoImplicit false

/-!
# Consoles

A program for the console takes turns: it prints lines and goes on, or prints a
prompt and waits for a line, or stops.  A transcript is what comes out of it for
given lines of input.
-/

namespace Gamebook

/-- The next thing that a program in a state of type `S` does; it stops with a
result of type `R`. -/
inductive Turn (S R : Type) where
  /-- It prints lines and goes on. -/
  | say (lines : List Text) (next : S)
  /-- It prints a prompt and waits for a line, or for the end of the input.  Then
  it prints lines and goes on. -/
  | ask (prompt : Text) (hear : Option Text → List Text × S)
  /-- It stops. -/
  | stop (result : R)

/-- The turn of a program that runs inside another one, which takes over when the
inner one stops. -/
def Turn.within {S T R Q : Type} (inside : S → T) (stopped : R → Turn T Q) : Turn S R → Turn T Q
  | .say lines next => .say lines (inside next)
  | .ask prompt hear =>
    .ask prompt fun line =>
      let (lines, next) := hear line
      (lines, inside next)
  | .stop result => stopped result

/-- What a program has done. -/
structure Transcript (S R : Type) where
  /-- All that is printed; what is typed is not. -/
  output : Text
  /-- The lines of input that have not been read. -/
  unread : List Text
  /-- The last state. -/
  state : S
  /-- The result, if the program has stopped. -/
  result? : Option R

/-- The transcript after something else has been printed first. -/
def Transcript.after {S R : Type} (output : Text) (t : Transcript S R) : Transcript S R :=
  { t with output := output ++ t.output }

/-- The transcript of a program for lines of input, with a limit to the number of
its turns. -/
def transcript {S R : Type} (turn : S → Turn S R) : Nat → S → List Text → Transcript S R
  | 0, s, input => ⟨[], input, s, none⟩
  | turns + 1, s, input =>
    match turn s with
    | .stop result => ⟨[], input, s, some result⟩
    | .say lines next => (transcript turn turns next input).after (Text.unlines lines)
    | .ask prompt hear =>
      let (lines, next) := hear input.head?
      (transcript turn turns next input.tail).after (prompt ++ Text.unlines lines)

end Gamebook
