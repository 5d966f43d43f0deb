import Gamebook.Proofs.Loading.Chain
import Gamebook.Proofs.Story.Refusals
set_option autoImplicit false

/-!
# Lines that say nothing

Outside of descriptions an empty line or a comment leaves the reader where it is, so one more
of them changes nothing but the numbers of the lines after it.  The line with the story mark is
itself such a line for the standard marks: a story file is read alike with it and without it.
-/

namespace Gamebook

open Text

/-- The error with its line, if it is about one, one further down. -/
def StoryError.later : StoryError → StoryError
  | .malformedLine number line => .malformedLine (number + 1) line
  | .duplicateRoom number line room => .duplicateRoom (number + 1) line room
  | e => e

theorem StoryError.later_of_line? {e : StoryError} (h : e.line? = none) : e.later = e := by
  cases e <;> first | rfl | cases h

namespace Story.Reader

variable {m : Markers} {place : Place} {front back : List Text} {line : Text}

/-- The numbers of the lines are told by errors and change nothing else. -/
theorem readFrom_succ (number : Nat) (place : Place) (raw : List Text) :
    readFrom m (number + 1) place raw = (readFrom m number place raw).mapError .later := by
  induction raw generalizing number place with
  | nil => rfl
  | cons line rest ih =>
    rw [readFrom, readFrom]
    cases step m place (trim line) with
    | error refusal => cases refusal <;> rfl
    | ok next => exact ih (number + 1) next

theorem finish_later (place : Place) : finish place = (finish place).mapError .later := by
  cases h : finish place with
  | error e => rw [Except.mapError, StoryError.later_of_line? (line?_of_finish h)]
  | ok story => rfl

theorem isSkipped_iff : isSkipped m line = true ↔ line = [] ∨ m.comment <+: line := by
  rw [isSkipped, Bool.or_eq_true, decide_eq_true_eq, Option.isSome_iff_exists]
  refine or_congr_right ⟨?_, ?_⟩
  · intro h
    obtain ⟨tail, htail⟩ := h
    exact ⟨tail, (after?_eq_some_iff.mp htail).symm⟩
  · intro h
    obtain ⟨tail, htail⟩ := h
    exact ⟨tail, after?_eq_some_iff.mpr htail.symm⟩

theorem readFrom_skipped (houtside : place.IsOutside) (hline : isSkipped m (trim line) = true)
    (number : Nat) :
    readFrom m number place (line :: back) = readFrom m (number + 1) place back := by
  rw [readFrom, step_of_move (.skip houtside hline)]

/-- A line that says nothing moves the lines after it by one, and that is all it does. -/
theorem read_insert (hfront : readFrom m 1 .preamble front = .ok place)
    (houtside : place.IsOutside) (hline : isSkipped m (trim line) = true) :
    Story.read m (front ++ line :: back) = (Story.read m (front ++ back)).mapError .later := by
  have hwith : readFrom m 1 .preamble (front ++ line :: back) =
      (readFrom m 1 .preamble (front ++ back)).mapError .later := by
    rw [readFrom_append, readFrom_append, hfront]
    exact (readFrom_skipped houtside hline _).trans (readFrom_succ _ place back)
  rw [Story.read, Story.read, hwith]
  cases readFrom m 1 .preamble (front ++ back) with
  | error e => rfl
  | ok last => exact finish_later last

end Story.Reader

/-! ## The line with the story mark -/

namespace World

open Story.Reader

variable {w : World} {path first : Text} {rest : List Text}

/-- What loading a story file comes to when its lines are read in this way. -/
def loadedAs (path : Text) : Except StoryError Story → Except LoadError Loaded
  | .ok story => .ok ⟨path, story, story.opening.id⟩
  | .error e => .error ⟨.story e, none⟩

theorem exists_resolve_of_readLines {lines : List Text} (h : w.readLines path = .ok lines) :
    ∃ l, w.resolve (.ofText path) = .ok l := by
  cases hresolve : w.resolve (.ofText path) with
  | ok l => exact ⟨l, rfl⟩
  | error e =>
    rw [readLines_of_null (null_iff_resolve_error.mpr ⟨e, hresolve⟩)] at h
    cases h

/-- A file with the story mark is loaded as the lines after the mark are read. -/
theorem load_of_storyMagic (hlines : w.readLines path = .ok (first :: rest))
    (hmagic : trim first = Markers.standard.storyMagic) :
    w.load .standard path = loadedAs path (Story.read .standard rest) := by
  obtain ⟨l, hl⟩ := exists_resolve_of_readLines hlines
  cases hread : Story.read .standard rest with
  | ok story => exact loadFrom_of_story hl List.not_mem_nil ⟨first, rest, hlines, hmagic, hread⟩
  | error e =>
    have hcause : e.cause = .story e := by
      cases e with
      | emptySeparator =>
        exact absurd hread (read_ne_emptySeparator separates_standard rest)
      | _ => rfl
    rw [load, loadFrom_of_fails hl List.not_mem_nil (.noStory hlines hmagic hread), hcause]
    rfl

end World

namespace Story

open Reader

/-- Whatever the marks are: after lines that the reader takes and that do not leave it inside of a
description, one more line that is empty or a comment changes nothing but the number in an error
about a later line.  With the standard marks the line with the story mark is such a line: a story
file is loaded as the lines after it are read, and with it they are read alike up to the
numbers. -/
theorem read_insert_silent :
    (∀ (m : Markers) (front back : List Text) (line : Text) (place : Place),
      readFrom m 1 .preamble front = .ok place → place.IsOutside →
      trim line = [] ∨ m.comment <+: trim line →
      Story.read m (front ++ line :: back) = (Story.read m (front ++ back)).mapError .later) ∧
    ∀ (w : World) (path first : Text) (rest : List Text),
      w.readLines path = .ok (first :: rest) → trim first = Markers.standard.storyMagic →
      Story.read .standard (first :: rest) = (Story.read .standard rest).mapError .later ∧
        w.load .standard path = World.loadedAs path (Story.read .standard rest) := by
  refine ⟨?_, ?_⟩
  · intro m front back line place hfront houtside hline
    exact read_insert hfront houtside (isSkipped_iff.mpr hline)
  · intro w path first rest hlines hmagic
    have hskipped : isSkipped .standard (trim first) = true := by
      rw [hmagic]
      decide
    have hstart : readFrom .standard 1 .preamble [] = .ok .preamble := rfl
    exact ⟨read_insert hstart trivial hskipped, World.load_of_storyMagic hlines hmagic⟩

/-- A comment before a second header of the hall, and the story file of the cellar. -/
theorem read_insert_silent_cellar :
    Story.read .standard (Cellar.lines.take 4 ++ ["Rhall: Again".toList]) =
        .error (.duplicateRoom 5 "Rhall: Again".toList "hall".toList) ∧
      Story.read .standard (Cellar.lines.take 4 ++ ["\t# Again?".toList, "Rhall: Again".toList]) =
        .error (.duplicateRoom 6 "Rhall: Again".toList "hall".toList) ∧
      Cellar.world.load .standard "story".toList =
        .ok ⟨"story".toList, Cellar.story, "hall".toList⟩ ∧
      Story.read .standard ("#!STORY".toList :: Cellar.lines) = .ok Cellar.story := by
  have hread : Story.read .standard (Cellar.lines.take 4 ++ ["Rhall: Again".toList]) =
      .error (.duplicateRoom 5 "Rhall: Again".toList "hall".toList) := rfl
  have hinsert := read_insert_silent.1 .standard (Cellar.lines.take 4) ["Rhall: Again".toList]
    "\t# Again?".toList _ rfl trivial (.inr (by decide))
  have hlines : Cellar.world.readLines "story".toList = .ok ("#!STORY".toList :: Cellar.lines) :=
    Cellar.readLines_of_node (l := ["story".toList]) rfl rfl (by decide)
  obtain ⟨hall, hload⟩ := read_insert_silent.2 _ _ _ _ hlines (by decide)
  have hstory : Story.read .standard Cellar.lines = .ok Cellar.story := rfl
  rw [hread] at hinsert
  rw [hstory] at hall hload
  exact ⟨hread, hinsert, hload, hall⟩

end Story

end Gamebook
