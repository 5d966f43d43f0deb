import Gamebook.Proofs.Story.Moves
set_option autoImplicit false

/-!
# Marks that separate

A line cannot be cut at an empty mark, and a reader with such a mark refuses lines for
it.  A reader whose marks are there never does, so that all its refusals are about the
text.
-/

namespace Gamebook.Story.Reader

open Text

variable {m : Markers}

/-- None of the marks at which lines are cut is empty. -/
structure Separates (m : Markers) : Prop where
  title : m.title ≠ []
  target : m.target ≠ []
  weight : m.weight ≠ []

theorem separates_standard : Separates .standard := ⟨by decide, by decide, by decide⟩

theorem cutAt_of_ne_nil {separator : Text} (h : separator ≠ []) (s : Text) :
    cutAt separator s = .ok (cutFirst? separator s) := if_neg h

theorem header_ne_emptySeparator (h : Separates m) (s : Text) :
    header m s ≠ .error .emptySeparator := by
  rw [header, cutAt_of_ne_nil h.title]
  split
  · rename_i hcut
    cases hcut
  · simp
  · split <;> simp

theorem destination_ne_error (h : Separates m) (s : Text) (e : Refusal) :
    destination m s ≠ .error e := by
  rw [destination, if_neg h.weight]
  split <;> simp

theorem choice_ne_emptySeparator (h : Separates m) (s : Text) :
    choice m s ≠ .error .emptySeparator := by
  rw [choice, cutAt_of_ne_nil h.target]
  split
  · rename_i hcut
    cases hcut
  · simp
  · split
    · rename_i e hdestination
      exact absurd hdestination (destination_ne_error h _ e)
    · split <;> simp

theorem transition_ne_emptySeparator (h : Separates m) (earlier : List Transition) (line : Text) :
    transition m earlier line ≠ .error .emptySeparator := by
  unfold transition
  split
  · simp
  · split
    · rename_i s _
      cases hchoice : choice m s with
      | error e =>
        rintro ⟨rfl⟩
        exact choice_ne_emptySeparator h s hchoice
      | ok c => simp [Except.map]
    · split
      · split <;> simp
      · simp

theorem enterRoom_ne_emptySeparator (h : Separates m) (place : Place) (s : Text) :
    enterRoom m place s ≠ .error .emptySeparator := by
  unfold enterRoom
  split
  · rename_i e hheader
    rintro ⟨rfl⟩
    exact header_ne_emptySeparator h s hheader
  · split <;> simp

theorem step_ne_emptySeparator (h : Separates m) (place : Place) (line : Text) :
    step m place line ≠ .error .emptySeparator := by
  cases place with
  | describing finished id title description =>
    rw [step]
    split <;> simp
  | preamble =>
    rw [step]
    split
    · simp
    · split
      · exact enterRoom_ne_emptySeparator h _ _
      · simp
  | listing finished room =>
    rw [step]
    split
    · simp
    · split
      · exact enterRoom_ne_emptySeparator h _ _
      · split
        · simp
        · split
          · rename_i e htransition
            rintro ⟨rfl⟩
            exact transition_ne_emptySeparator h _ _ htransition
          · simp

theorem readFrom_ne_emptySeparator (h : Separates m) (number : Nat) (place : Place)
    (raw : List Text) : readFrom m number place raw ≠ .error .emptySeparator := by
  induction raw generalizing number place with
  | nil => simp [readFrom]
  | cons line rest ih =>
    rw [readFrom]
    split
    · rename_i e hstep
      cases e with
      | emptySeparator => exact absurd hstep (step_ne_emptySeparator h _ _)
      | malformed => simp [Refusal.error]
      | duplicate room => simp [Refusal.error]
    · exact ih _ _

theorem finish_ne_emptySeparator (place : Place) : finish place ≠ .error .emptySeparator := by
  have hcomplete (rooms : List Room) : complete rooms ≠ .error .emptySeparator := by
    unfold complete
    split <;> simp
  cases place with
  | preamble => simp [finish]
  | describing finished id title description =>
    rw [finish]
    split
    · rename_i e he
      rintro ⟨rfl⟩
      exact hcomplete _ he
    · simp
  | listing finished room =>
    rw [finish]
    split
    · rename_i e he
      rintro ⟨rfl⟩
      exact hcomplete _ he
    · simp

/-- Where lines are cut at marks that are not empty, no text is refused for them. -/
theorem read_ne_emptySeparator (h : Separates m) (raw : List Text) :
    Story.read m raw ≠ .error .emptySeparator := by
  unfold Story.read
  split
  · rename_i e he
    rintro ⟨rfl⟩
    exact readFrom_ne_emptySeparator h _ _ _ he
  · exact finish_ne_emptySeparator _

end Gamebook.Story.Reader
