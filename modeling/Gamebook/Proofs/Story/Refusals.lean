import Gamebook.Proofs.Story.Separators
set_option autoImplicit false

/-!
# Lines that are refused

The reader stops at the first line that it refuses, and its error names this line.  What
follows the line is not looked at, and the lines before it by themselves are not refused,
though they may be no complete story.  Where lines are cut at marks that are not empty, lines
that are not refused lead the reader to a place, and only rooms without transitions are left
to be complained about.
-/

namespace Gamebook

open Text

/-- The number and the text of the line that an error is about, if it is about a line. -/
def StoryError.line? : StoryError → Option (Nat × Text)
  | .malformedLine number line | .duplicateRoom number line _ => some (number, line)
  | _ => none

/-- Reading the lines ends with an error about one of them. -/
def Story.IsRefused (m : Markers) (lines : List Text) : Prop :=
  ∃ e number text, Story.read m lines = .error e ∧ e.line? = some (number, text)

namespace Story.Reader

variable {m : Markers} {number : Nat} {place : Place} {front back raw : List Text}
  {line : Text} {e : StoryError}

/-! ## Runs of the reader -/

/-- The reader takes up lines where it has been left by the lines before them. -/
theorem readFrom_append : readFrom m number place (front ++ back) =
    match readFrom m number place front with
    | .error e => .error e
    | .ok next => readFrom m (number + front.length) next back := by
  induction front generalizing number place with
  | nil => rfl
  | cons line rest ih =>
    rw [List.cons_append, readFrom, readFrom]
    cases step m place (trim line) with
    | error refusal => rfl
    | ok next =>
      simp only [ih, List.length_cons]
      rw [Nat.add_right_comm, Nat.add_assoc number]

/-- A line that is refused ends the reading, whatever follows it. -/
theorem readFrom_of_refusal {next : Place} {refusal : Refusal}
    (hfront : Reads m place (front.map trim) next)
    (hstep : step m next (trim line) = .error refusal) (back : List Text) : readFrom m number place (front ++ line :: back) =
      .error (refusal.error (number + front.length) (trim line)) := by
  simp only [readFrom_append, readFrom_eq_ok_iff.mpr hfront, readFrom, hstep]

/-- An error comes from the first line that is refused. -/
theorem exists_refusal (h : readFrom m number place raw = .error e) :
    ∃ front line back next refusal, raw = front ++ line :: back ∧
      Reads m place (front.map trim) next ∧ step m next (trim line) = .error refusal ∧
      e = refusal.error (number + front.length) (trim line) := by
  induction raw generalizing number place with
  | nil => cases h
  | cons first rest ih =>
    rw [readFrom] at h
    split at h
    · rename_i refusal hstep
      exact ⟨[], first, rest, place, refusal, rfl, .nil place, hstep, (Except.error.inj h).symm⟩
    · rename_i next hstep
      obtain ⟨front, line, back, last, refusal, rfl, hreads, hrefused, rfl⟩ := ih h
      refine ⟨first :: front, line, back, last, refusal, rfl,
        .cons (step_eq_ok_iff.mp hstep) hreads, hrefused, ?_⟩
      rw [List.length_cons, Nat.add_right_comm, Nat.add_assoc number]

/-! ## Errors about lines -/

/-- What is missing in the end is not about a line. -/
theorem line?_of_finish (h : finish place = .error e) : e.line? = none := by
  have hcomplete {rooms : List Room} {e : StoryError} (he : complete rooms = .error e) :
      e.line? = none := by
    unfold complete at he
    split at he
    · rw [← Except.error.inj he]
      rfl
    · cases he
  cases place with
  | preamble =>
    rw [← Except.error.inj h]
    rfl
  | describing finished id title description =>
    rw [finish] at h
    split at h
    · rename_i he
      rw [← Except.error.inj h]
      exact hcomplete he
    · rw [← Except.error.inj h]
      rfl
  | listing finished room =>
    rw [finish] at h
    split at h
    · rename_i he
      rw [← Except.error.inj h]
      exact hcomplete he
    · cases h

/-- An error about a line comes from reading the lines up to there. -/
theorem readFrom_of_line? {found : Nat × Text} (hline : e.line? = some found)
    (h : Story.read m raw = .error e) : readFrom m 1 .preamble raw = .error e := by
  unfold Story.read at h
  split at h
  · rename_i he
    rw [he, Except.error.inj h]
  · rw [line?_of_finish h] at hline
    cases hline

theorem read_of_readFrom_error (h : readFrom m 1 .preamble raw = .error e) :
    Story.read m raw = .error e := by
  simp only [Story.read, h]

theorem read_of_reads {last : Place} (h : Reads m .preamble (raw.map trim) last) :
    Story.read m raw = finish last := by
  simp only [Story.read, readFrom_eq_ok_iff.mpr h]

theorem not_isRefused_of_reads {last : Place} (h : Reads m .preamble (raw.map trim) last) :
    ¬ Story.IsRefused m raw := by
  intro hrefused
  obtain ⟨e, n, text, he, hline⟩ := hrefused
  rw [read_of_reads h] at he
  rw [line?_of_finish he] at hline
  cases hline

/-- Lines that are not refused lead the reader to a place. -/
theorem exists_reads_iff (hm : Separates m) :
    (∃ last, Reads m .preamble (raw.map trim) last) ↔ ¬ Story.IsRefused m raw := by
  constructor
  · intro h
    obtain ⟨last, hlast⟩ := h
    exact not_isRefused_of_reads hlast
  · intro h
    cases hread : readFrom m 1 .preamble raw with
    | ok last => exact ⟨last, readFrom_eq_ok_iff.mp hread⟩
    | error e =>
      -- the first line that is refused is about itself, since no mark is empty
      obtain ⟨front, line, back, next, refusal, -, -, -, rfl⟩ := exists_refusal hread
      cases refusal with
      | malformed => exact absurd ⟨_, _, _, read_of_readFrom_error hread, rfl⟩ h
      | duplicate room => exact absurd ⟨_, _, _, read_of_readFrom_error hread, rfl⟩ h
      | emptySeparator => exact absurd hread (readFrom_ne_emptySeparator hm _ _ _)

/-- An error about a line comes from the first line that is refused. -/
theorem exists_refused_line {n : Nat} {text : Text} (h : Story.read m raw = .error e)
    (hline : e.line? = some (n, text)) :
    ∃ front line back next refusal, raw = front ++ line :: back ∧ n = front.length + 1 ∧
      text = trim line ∧ Reads m .preamble (front.map trim) next ∧
      step m next (trim line) = .error refusal ∧ e = refusal.error n text := by
  obtain ⟨front, line, back, next, refusal, rfl, hreads, hstep, rfl⟩ :=
    exists_refusal (readFrom_of_line? hline h)
  obtain ⟨rfl, rfl⟩ : 1 + front.length = n ∧ trim line = text := by
    cases refusal with
    | malformed => simpa [StoryError.line?, Refusal.error] using hline
    | duplicate room => simpa [StoryError.line?, Refusal.error] using hline
    | emptySeparator => cases hline
  exact ⟨front, line, back, next, refusal, rfl, Nat.add_comm _ _, rfl, hreads, hstep, rfl⟩

/-- The lines before the one that is refused are not refused, and the error is the same whatever
follows it. -/
theorem refused_at {n : Nat} {text : Text} (h : Story.read m raw = .error e)
    (hline : e.line? = some (n, text)) :
    1 ≤ n ∧ n ≤ raw.length ∧ raw[n - 1]?.map trim = some text ∧
      ¬ Story.IsRefused m (raw.take (n - 1)) ∧
      ∀ more, Story.read m (raw.take n ++ more) = .error e := by
  obtain ⟨front, line, back, next, refusal, rfl, rfl, rfl, hreads, hstep, rfl⟩ :=
    exists_refused_line h hline
  have hupto : (front ++ line :: back).take (front.length + 1) = front ++ [line] := by
    rw [List.append_cons, List.take_left' (by simp)]
  refine ⟨Nat.le_add_left _ _, by simp, by simp, ?_, ?_⟩
  · rw [Nat.add_sub_cancel, List.take_left]
    exact not_isRefused_of_reads hreads
  · intro more
    rw [hupto, List.append_assoc, List.singleton_append, Nat.add_comm]
    exact read_of_readFrom_error (readFrom_of_refusal hreads hstep more)

/-! ## Headers of rooms that there are already -/

theorem header_ne_duplicate (s id : Text) : header m s ≠ .error (.duplicate id) := by
  unfold header cutAt
  split
  · rename_i hcut
    split at hcut
    · cases hcut
      simp
    · cases hcut
  · simp
  · split <;> simp

theorem transition_ne_duplicate (earlier : List Transition) (line id : Text) :
    transition m earlier line ≠ .error (.duplicate id) := by
  have hdestination (s : Text) : destination m s ≠ .error (.duplicate id) := by
    unfold destination
    split
    · simp
    · split <;> simp
  have hchoice (s : Text) : choice m s ≠ .error (.duplicate id) := by
    unfold choice cutAt
    split
    · rename_i hcut
      split at hcut
      · cases hcut
        simp
      · cases hcut
    · simp
    · split
      · rename_i he
        rintro ⟨rfl⟩
        exact hdestination _ he
      · split <;> simp
  unfold transition
  split
  · simp
  · split
    · rename_i s _
      cases hs : choice m s with
      | error e =>
        rintro ⟨rfl⟩
        exact hchoice s hs
      | ok c => simp [Except.map]
    · split
      · split <;> simp
      · simp

theorem enterRoom_eq_duplicate_iff {s id : Text} :
    enterRoom m place s = .error (.duplicate id) ↔
      ∃ title, header m s = .ok (id, title) ∧ id ∈ place.ids := by
  unfold enterRoom
  cases hheader : header m s with
  | error e =>
    simp only [Except.error.injEq, reduceCtorEq, false_and, exists_false, iff_false]
    rintro rfl
    exact header_ne_duplicate s id hheader
  | ok found =>
    obtain ⟨id', title⟩ := found
    by_cases hid : id' ∈ place.ids
    · simp only [List.contains_iff_mem.mpr hid, if_true, Except.error.injEq,
        Refusal.duplicate.injEq, Except.ok.injEq, Prod.mk.injEq]
      constructor
      · rintro rfl
        exact ⟨title, ⟨rfl, rfl⟩, hid⟩
      · rintro ⟨_, ⟨rfl, -⟩, -⟩
        rfl
    · have hnot : ¬ place.ids.contains id' = true := fun h => hid (List.contains_iff_mem.mp h)
      simp only [if_neg hnot, reduceCtorEq, Except.ok.injEq, Prod.mk.injEq, false_iff]
      rintro ⟨_, ⟨rfl, -⟩, hmem⟩
      exact hid hmem

theorem step_of_mark {s : Text} (houtside : place.IsOutside) (hspoken : isSkipped m line = false)
    (hmark : line = m.room ++ s) : step m place line = enterRoom m place s := by
  have hs := after?_eq_some_iff.mpr hmark
  cases place with
  | preamble => simp only [step, hspoken, Bool.false_eq_true, if_false, hs]
  | describing => exact houtside.elim
  | listing => simp only [step, hspoken, Bool.false_eq_true, if_false, hs]

theorem exists_mark_of_duplicate {id : Text} (h : step m place line = .error (.duplicate id)) :
    place.IsOutside ∧ isSkipped m line = false ∧ ∃ s, line = m.room ++ s := by
  cases place with
  | describing finished id title description =>
    simp only [step] at h
    split at h <;> cases h
  | preamble =>
    simp only [step] at h
    split at h
    · cases h
    · rename_i hspoken
      split at h
      · rename_i s hs
        exact ⟨trivial, by simpa using hspoken, s, after?_eq_some_iff.mp hs⟩
      · cases h
  | listing finished room =>
    simp only [step] at h
    split at h
    · cases h
    · rename_i hspoken
      split at h
      · rename_i s hs
        exact ⟨trivial, by simpa using hspoken, s, after?_eq_some_iff.mp hs⟩
      · split at h
        · cases h
        · split at h
          · rename_i e he
            obtain rfl := Except.error.inj h
            exact absurd he (transition_ne_duplicate _ _ _)
          · cases h

/-- A line is refused for its id exactly if it is a header outside of descriptions, and there is
a room with this id. -/
theorem step_eq_duplicate_iff {id : Text} :
    step m place line = .error (.duplicate id) ↔
      place.IsOutside ∧ isSkipped m line = false ∧
        ∃ s title, line = m.room ++ s ∧ header m s = .ok (id, title) ∧ id ∈ place.ids := by
  constructor
  · intro h
    obtain ⟨houtside, hspoken, s, hmark⟩ := exists_mark_of_duplicate h
    rw [step_of_mark houtside hspoken hmark] at h
    obtain ⟨title, hread, hold⟩ := enterRoom_eq_duplicate_iff.mp h
    exact ⟨houtside, hspoken, s, title, hmark, hread, hold⟩
  · intro h
    obtain ⟨houtside, hspoken, s, title, hmark, hread, hold⟩ := h
    rw [step_of_mark houtside hspoken hmark]
    exact enterRoom_eq_duplicate_iff.mpr ⟨title, hread, hold⟩

end Story.Reader

end Gamebook
