import Gamebook.Console
set_option autoImplicit false

/-!
# Properties of transcripts

A transcript is what turns come to one after the other.  A property of all that has been
printed, of the state and of the lines that are left holds of every transcript, however
many turns it has, when each turn keeps it.
-/

namespace Gamebook

variable {S R : Type} {turn : S → Turn S R}

/-- What every turn keeps holds at the end of a transcript, after all that has been printed
before it and in it. -/
theorem transcript_invariant {I : Text → S → List Text → Prop}
    (say : ∀ {printed s input lines next}, I printed s input → turn s = .say lines next →
      I (printed ++ Text.unlines lines) next input)
    (ask : ∀ {printed s input prompt hear}, I printed s input → turn s = .ask prompt hear →
      I (printed ++ (prompt ++ Text.unlines (hear input.head?).1)) (hear input.head?).2 input.tail)
    (turns : Nat) {printed : Text} {s : S} {input : List Text} (h : I printed s input) :
    I (printed ++ (transcript turn turns s input).output) (transcript turn turns s input).state
      (transcript turn turns s input).unread := by
  induction turns generalizing printed s input with
  | zero => simpa [transcript] using h
  | succ turns ih =>
    rw [transcript]
    -- what a turn prints stands between what was printed before and the rest
    cases hturn : turn s with
    | stop result => simpa using h
    | say lines next =>
      have hrest := ih (say h hturn)
      rwa [List.append_assoc] at hrest
    | ask prompt hear =>
      have hrest := ih (ask h hturn)
      rwa [List.append_assoc] at hrest

/-- A program that has come to a result stops with it. -/
theorem turn_of_transcript_result {turns : Nat} {s : S} {input : List Text} {result : R}
    (h : (transcript turn turns s input).result? = some result) :
    turn (transcript turn turns s input).state = .stop result := by
  induction turns generalizing s input with
  | zero => cases h
  | succ turns ih =>
    rw [transcript] at h ⊢
    cases hturn : turn s with
    | stop found =>
      rw [hturn] at h
      obtain rfl := Option.some.inj h
      exact hturn
    | say lines next =>
      rw [hturn] at h
      exact ih h
    | ask prompt hear =>
      rw [hturn] at h
      exact ih h

end Gamebook
