import Gamebook.Proofs.Story.Grammar.Exact
import Gamebook.Proofs.Story.Refusals
set_option autoImplicit false

/-!
# What is said about lines that are no story

An outline of lines tells, without a look at what the lines say, which rooms are begun, which
descriptions have ended, and how many lines have followed.  It decides what is said about
lines that are no story: a header is refused for an id that is in the outline of the lines
before it, and when no line is refused, the first room of the outline that no line has
followed is complained about.
-/

namespace Gamebook

open Text Story.Reader Story.Grammar

/-! ## Outlines -/

namespace Story

/-- What an outline tells about a room. -/
structure Sketch where
  id : Text
  /-- The description has ended. -/
  isClosed : Bool
  /-- How many lines that say something have followed the description. -/
  followers : Nat
  deriving DecidableEq, Repr, Inhabited

/-- The id in a header: what stands between the room mark and the first colon. -/
def headerId (line : Text) : Text := trim ((line.drop 1).takeWhile (· ≠ ':'))

/-- An outline, in which the room that was begun last stands first, after one more line.
Inside of a description only the end matters; outside, a line says nothing, or begins a room,
or follows a description. -/
def extend : List Sketch → Text → List Sketch
  | ⟨id, false, followers⟩ :: earlier, line =>
    ⟨id, line = descriptionEnd, followers⟩ :: earlier
  | rooms, line =>
    if isSilent line then rooms
    else if line.head? = some 'R' then ⟨headerId line, false, 0⟩ :: rooms
    else
      match rooms with
      | [] => []
      | r :: earlier => { r with followers := r.followers + 1 } :: earlier

/-- The outline of lines: the rooms that they begin, in order. -/
def outline (lines : List Text) : List Sketch := ((lines.map trim).foldl extend []).reverse

/-- The lines end inside of a description. -/
def EndsInside (lines : List Text) : Prop := ∃ r ∈ (outline lines).getLast?, r.isClosed = false

/-- What is said about a room that no line has followed: its description does not end, or there
is nothing after it. -/
def Sketch.complaint (r : Sketch) : StoryError :=
  if r.isClosed then .noTransitions r.id else .unclosedDescription r.id

/-- What is said about an outline, if it is not the one of a story: there is no room, or the
first that no line has followed is complained about. -/
def complaint? (rooms : List Sketch) : Option StoryError :=
  if rooms = [] then some .noRooms
  else (rooms.find? (·.followers = 0)).map Sketch.complaint

theorem headerId_of_isHeader {line id title : Text} (h : IsHeader line id title) :
    headerId line = id := by
  obtain ⟨before, tail, rfl, hnot, -, rfl, -⟩ := h
  have hbefore : ∀ c ∈ before, (decide (c ≠ ':')) = true := fun c hc =>
    decide_eq_true fun heq => hnot (heq ▸ hc)
  rw [headerId, List.drop_one, List.tail_cons, List.takeWhile_append_of_pos hbefore]
  simp

end Story

/-! ## The outline that a place is at -/

/-- What an outline tells about a room whose description has ended. -/
def Room.sketch (r : Room) : Story.Sketch := ⟨r.id, true, r.transitions.length⟩

namespace Story.Reader.Place

/-- The outline of the lines that lead to a place, the last room first. -/
def sketches : Place → List Sketch
  | .preamble => []
  | .describing finished id _ _ => ⟨id, false, 0⟩ :: (finished.map Room.sketch).reverse
  | .listing finished room => room.sketch :: (finished.map Room.sketch).reverse

variable {place : Place}

theorem sketches_of_isOutside (h : place.IsOutside) :
    place.sketches = (place.roomsBefore.map Room.sketch).reverse := by
  cases place with
  | preamble => rfl
  | describing => exact h.elim
  | listing => simp [sketches, roomsBefore]

theorem isOutside_iff : place.IsOutside ↔ ¬ ∃ r ∈ place.sketches.head?, r.isClosed = false := by
  cases place <;> simp [IsOutside, sketches, Room.sketch]

theorem mem_ids_iff {id : Text} : id ∈ place.ids ↔ ∃ r ∈ place.sketches, r.id = id := by
  cases place <;> simp [ids, sketches, Room.sketch, or_comm, eq_comm]

/-- Outside of descriptions a line is looked at. -/
theorem extend_of_isOutside (h : place.IsOutside) (line : Text) :
    extend place.sketches line =
      if isSilent line then place.sketches
      else if line.head? = some 'R' then ⟨headerId line, false, 0⟩ :: place.sketches
      else
        match place.sketches with
        | [] => []
        | r :: earlier => { r with followers := r.followers + 1 } :: earlier := by
  cases place with
  | preamble => rfl
  | describing => exact h.elim
  | listing => rfl

end Story.Reader.Place

namespace Story

variable {place last : Place} {line : Text} {lines : List Text} {e : StoryError}

/-- A move changes the outline as its line does. -/
theorem extend_of_move {next : Place} (h : Move .standard place line next) :
    extend place.sketches line = next.sketches := by
  cases h with
  | skip outside skipped =>
    rw [isSkipped_standard] at skipped
    rw [Place.extend_of_isOutside outside, if_pos skipped]
  | @enter _ _ s id title outside spoken mark read new =>
    have hheader := isHeader_iff.mp ⟨s, mark, read⟩
    rw [isSkipped_standard] at spoken
    rw [Place.extend_of_isOutside outside, if_neg (by simp [spoken]), if_pos hheader.head?_eq,
      headerId_of_isHeader hheader, Place.sketches_of_isOutside outside]
    rfl
  | close => rfl
  | @describe finished id title line description going =>
    have hnot : decide (line = descriptionEnd) = false := decide_eq_false going
    simp only [Place.sketches, extend, hnot]
  | @list finished room _ t spoken unmarked going read =>
    have hhead : line.head? ≠ some 'R' := (transition_standard_plain read).2.1
    have houtside : (Place.listing finished room).IsOutside := trivial
    rw [isSkipped_standard] at spoken
    rw [Place.extend_of_isOutside houtside, if_neg (by simp [spoken]), if_neg hhead]
    simp [Place.sketches, Room.sketch]

theorem foldl_extend_of_reads (h : Reads .standard place lines last) :
    lines.foldl extend place.sketches = last.sketches := by
  induction h with
  | nil => rfl
  | cons head _ ih => rw [List.foldl_cons, extend_of_move head, ih]

/-- Lines lead to a place with their outline. -/
theorem outline_of_reads (h : Reads .standard .preamble (lines.map trim) last) :
    outline lines = last.sketches.reverse := by
  have hfold := foldl_extend_of_reads h
  rw [outline, ← hfold]
  rfl

theorem isOutside_iff_of_reads (h : Reads .standard .preamble (lines.map trim) last) :
    last.IsOutside ↔ ¬ EndsInside lines := by
  rw [Place.isOutside_iff, EndsInside, outline_of_reads h, List.getLast?_reverse]

/-! ## Stories that are not complete -/

theorem find?_sketch (rooms : List Room) :
    (rooms.map Room.sketch).find? (·.followers = 0) =
      (rooms.find? (·.transitions.isEmpty)).map Room.sketch := by
  rw [List.find?_map]
  congr 2
  funext r
  rw [Bool.eq_iff_iff]
  simp [Room.sketch]

/-- What is missing in the end can be seen in the outline. -/
theorem finish_eq_error_iff :
    finish place = .error e ↔ complaint? place.sketches.reverse = some e := by
  cases place with
  | preamble => simp [finish, Place.sketches, complaint?]
  | describing finished id title description =>
    simp only [finish, complete, Place.sketches, List.reverse_cons, List.reverse_reverse,
      complaint?, List.find?_append, find?_sketch]
    cases finished.find? (·.transitions.isEmpty) <;> simp [Sketch.complaint, Room.sketch]
  | listing finished room =>
    have hsketches : (finished.map Room.sketch).reverse.reverse ++ [room.sketch] =
        (finished ++ [room]).map Room.sketch := by simp
    simp only [finish, complete, Place.sketches, List.reverse_cons, hsketches, complaint?,
      find?_sketch]
    cases (finished ++ [room]).find? (·.transitions.isEmpty) <;>
      simp [Sketch.complaint, Room.sketch]

theorem isClosed_of_mem_dropLast {r : Sketch} (h : r ∈ place.sketches.reverse.dropLast) :
    r.isClosed = true := by
  cases place with
  | preamble => cases h
  | describing finished id title description =>
    simp only [Place.sketches, List.reverse_cons, List.reverse_reverse, List.dropLast_concat] at h
    obtain ⟨room, -, rfl⟩ := List.mem_map.mp h
    rfl
  | listing finished room =>
    simp only [Place.sketches, List.reverse_cons, List.reverse_reverse, List.dropLast_concat] at h
    obtain ⟨room, -, rfl⟩ := List.mem_map.mp h
    rfl

theorem exists_complaint?_iff {rooms : List Sketch} :
    (∃ e, complaint? rooms = some e) ↔ rooms = [] ∨ ∃ r ∈ rooms, r.followers = 0 := by
  unfold complaint?
  split
  · rename_i hnil
    simp [hnil]
  · rename_i hne
    simp [hne, ← Option.isSome_iff_exists]

/-! ## Diagnostics -/

/-- After lines that lead to a place, a line is refused for its id exactly if it is a header
outside of descriptions with the id of a room that these lines begin. -/
theorem step_eq_duplicate_iff_of_reads {id : Text}
    (h : Reads .standard .preamble (lines.map trim) last) :
    step .standard last line = .error (.duplicate id) ↔
      ¬ EndsInside lines ∧ (∃ title, IsHeader line id title) ∧ ∃ r ∈ outline lines, r.id = id := by
  have hids : id ∈ last.ids ↔ ∃ r ∈ outline lines, r.id = id := by
    simp only [Place.mem_ids_iff, outline_of_reads h, List.mem_reverse]
  rw [step_eq_duplicate_iff, isOutside_iff_of_reads h, hids]
  refine and_congr_right fun _ => ?_
  constructor
  · intro h
    obtain ⟨-, s, title, hmark, hread, hold⟩ := h
    exact ⟨⟨title, isHeader_iff.mp ⟨s, hmark, hread⟩⟩, hold⟩
  · intro h
    obtain ⟨⟨title, hheader⟩, hold⟩ := h
    obtain ⟨s, hmark, hread⟩ := isHeader_iff.mpr hheader
    have hspoken : isSkipped .standard line = false := by
      rw [isSkipped_standard]
      exact isSilent_eq_false_of_head? hheader.head?_eq
    exact ⟨hspoken, s, title, hmark, hread, hold⟩

/-- A header is refused for its id exactly if it stands outside of descriptions and its id is
the one of a room that the lines before it begin, and these lines are not refused. -/
theorem read_eq_duplicate_iff {n : Nat} {text id : Text} :
    Story.read .standard lines = .error (.duplicateRoom n text id) ↔
      1 ≤ n ∧ lines[n - 1]?.map trim = some text ∧ ¬ IsRefused .standard (lines.take (n - 1)) ∧
        ¬ EndsInside (lines.take (n - 1)) ∧ (∃ title, IsHeader text id title) ∧
        ∃ r ∈ outline (lines.take (n - 1)), r.id = id := by
  constructor
  · intro h
    obtain ⟨hpos, -, htext, hbefore, -⟩ := refused_at h rfl
    obtain ⟨front, line, back, next, refusal, rfl, rfl, rfl, hreads, hstep, herror⟩ :=
      exists_refused_line h rfl
    obtain rfl : refusal = .duplicate id := by
      cases refusal with
      | malformed => cases herror
      | duplicate room =>
        rw [Refusal.error, StoryError.duplicateRoom.injEq] at herror
        rw [herror.2.2]
      | emptySeparator => cases herror
    refine ⟨hpos, htext, hbefore, ?_⟩
    rw [Nat.add_sub_cancel, List.take_left]
    exact (step_eq_duplicate_iff_of_reads hreads).mp hstep
  · intro h
    obtain ⟨hpos, htext, hbefore, hheader⟩ := h
    obtain ⟨last, hreads⟩ := (exists_reads_iff separates_standard).mpr hbefore
    obtain ⟨line, hline, rfl⟩ := Option.map_eq_some_iff.mp htext
    obtain ⟨hlt, hget⟩ := List.getElem?_eq_some_iff.mp hline
    have hstep := (step_eq_duplicate_iff_of_reads hreads).mpr hheader
    have hlines : lines = lines.take (n - 1) ++ line :: lines.drop n := by
      have hdrop := List.drop_eq_getElem_cons hlt
      rw [hget, Nat.sub_add_cancel hpos] at hdrop
      rw [← hdrop, List.take_append_drop]
    have hnumber : 1 + (lines.take (n - 1)).length = n := by
      rw [List.length_take, Nat.min_eq_left (Nat.le_of_lt hlt), Nat.add_sub_cancel' hpos]
    have hrefused : readFrom .standard 1 .preamble (lines.take (n - 1) ++ line :: lines.drop n) =
        .error (.duplicateRoom (1 + (lines.take (n - 1)).length) (trim line) id) :=
      readFrom_of_refusal hreads hstep (lines.drop n)
    rw [← hlines, hnumber] at hrefused
    exact read_of_readFrom_error hrefused

/-- What is said about lines that are no story.  An error about a line gives its number and,
trimmed, its text; the lines before it by themselves are not refused, and whatever follows it
the error is the same.  It is about an id exactly if the line is a header outside of
descriptions with the id of an earlier room.  When no line is refused, the lines are no story
exactly if no room is begun or nothing follows the description of one, the first of which is
complained about, and only the last description may lack its end. -/
theorem read_diagnostics (lines : List Text) :
    (∀ e n text, Story.read .standard lines = .error e → e.line? = some (n, text) →
      1 ≤ n ∧ n ≤ lines.length ∧ lines[n - 1]?.map trim = some text ∧
        ¬ IsRefused .standard (lines.take (n - 1)) ∧
        ∀ more, Story.read .standard (lines.take n ++ more) = .error e) ∧
    (∀ n text id, Story.read .standard lines = .error (.duplicateRoom n text id) ↔
      1 ≤ n ∧ lines[n - 1]?.map trim = some text ∧ ¬ IsRefused .standard (lines.take (n - 1)) ∧
        ¬ EndsInside (lines.take (n - 1)) ∧ (∃ title, IsHeader text id title) ∧
        ∃ r ∈ outline (lines.take (n - 1)), r.id = id) ∧
    (¬ IsRefused .standard lines →
      ((∃ e, Story.read .standard lines = .error e) ↔
        outline lines = [] ∨ ∃ r ∈ outline lines, r.followers = 0) ∧
      (∀ e, Story.read .standard lines = .error e ↔ complaint? (outline lines) = some e) ∧
      ∀ r ∈ (outline lines).dropLast, r.isClosed = true) := by
  refine ⟨fun e n text h hline => refused_at h hline, fun n text id => read_eq_duplicate_iff, ?_⟩
  intro hrefused
  obtain ⟨last, hreads⟩ := (exists_reads_iff separates_standard).mpr hrefused
  have hcomplaint : ∀ e, Story.read .standard lines = .error e ↔
      complaint? (outline lines) = some e := by
    intro e
    rw [read_of_reads hreads, outline_of_reads hreads]
    exact finish_eq_error_iff
  refine ⟨?_, hcomplaint, ?_⟩
  · rw [← exists_complaint?_iff]
    exact exists_congr hcomplaint
  · intro r hr
    rw [outline_of_reads hreads] at hr
    exact isClosed_of_mem_dropLast hr

/-- The pit is the first room that no line has followed, and its description does not end. -/
example :
    let lines := ["Rhall: A hall".toList, ";;;".toList, "# a way out".toList,
      ":Jump -> pit".toList, "Rpit: A pit".toList, "Rocks.".toList]
    outline lines = [⟨"hall".toList, true, 1⟩, ⟨"pit".toList, false, 0⟩] ∧
      Story.read .standard lines = .error (.unclosedDescription "pit".toList) := by
  decide

end Story

end Gamebook
