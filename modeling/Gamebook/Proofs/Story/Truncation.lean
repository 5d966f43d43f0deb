import Gamebook.Proofs.Story.Kinds
import Gamebook.Proofs.Story.Refusals
import Mathlib.Data.List.DropRight
set_option autoImplicit false

/-!
# Stories that are cut off

The lines of a story that break off somewhere are never refused.  They are complained about
exactly as long as the last room that they begin, or the first one at all, is still to come by
a transition; else they hold the first rooms of the story, of which only the last may lack
transitions that would follow.  What carries this is that a room that is open can only get
more transitions, and rooms after it (`Place.Continues`).
-/

namespace Gamebook

open Text

/-! ## Waiting for a transition -/

namespace Story

/-- The kinds of the lines after the last header, or of all lines when there is none. -/
def sinceHeader (kinds : List Kind) : List Kind := kinds.rtakeWhile (· ≠ .header)

/-- There is no header among the lines, or no transition after the last one. -/
def AwaitsTransition (kinds : List Kind) : Prop :=
  .header ∉ kinds ∨ .transition ∉ sinceHeader kinds

instance (kinds : List Kind) : Decidable (AwaitsTransition kinds) :=
  inferInstanceAs (Decidable (_ ∨ _))

/-- The rooms of one story are the first rooms of the other, except that the last of them may
lack the transitions at the end. -/
def IsStartOf (cut story : Story) : Prop :=
  ∃ earlier room more later, cut.rooms = earlier ++ [room] ∧ room.transitions ≠ [] ∧
    story.rooms = earlier ++ { room with transitions := room.transitions ++ more } :: later

theorem sinceHeader_header (kinds : List Kind) : sinceHeader (kinds ++ [.header]) = [] :=
  List.rtakeWhile_concat_neg _ _ _ (by simp)

theorem sinceHeader_other {k : Kind} (h : k ≠ .header) (kinds : List Kind) :
    sinceHeader (kinds ++ [k]) = sinceHeader kinds ++ [k] :=
  List.rtakeWhile_concat_pos _ _ _ (by simpa using h)

end Story

namespace Story.Reader

variable {m : Markers} {place next last : Place} {line : Text} {lines : List Text}
  {finished : List Room} {room : Room} {kinds : List Kind}

/-- What lines of these kinds have led to. -/
def Place.Follows (kinds : List Kind) : Place → Prop
  | .preamble => .header ∉ kinds
  | .describing .. => .header ∈ kinds ∧ .transition ∉ sinceHeader kinds
  | .listing _ room =>
    .header ∈ kinds ∧ (room.transitions = [] ↔ .transition ∉ sinceHeader kinds)

theorem Place.Follows.move (h : place.Follows kinds) (hmove : Move m place line next) :
    next.Follows (kinds ++ [kind m place.isInside line]) := by
  cases hmove with
  | skip outside skipped =>
    rw [isInside_eq_false outside, kind_of_skipped skipped]
    cases place with
    | preamble => simpa [Follows] using h
    | describing => exact outside.elim
    | listing finished room =>
      refine ⟨List.mem_append_left _ h.1, h.2.trans ?_⟩
      rw [sinceHeader_other (by decide)]
      simp
  | enter outside spoken mark =>
    rw [isInside_eq_false outside, kind_of_mark spoken mark]
    exact ⟨by simp, by rw [sinceHeader_header]; simp⟩
  | close =>
    have hkind : kind m true m.descriptionEnd = .descriptionEnd := by simp [kind]
    refine ⟨List.mem_append_left _ h.1, ?_⟩
    rw [isInside, hkind, sinceHeader_other (by decide)]
    simpa using h.2
  | describe going =>
    have hkind : kind m true line = .description := by simp [kind, going]
    refine ⟨List.mem_append_left _ h.1, ?_⟩
    rw [isInside, hkind, sinceHeader_other (by decide)]
    simpa using h.2
  | list spoken unmarked =>
    refine ⟨List.mem_append_left _ h.1, ?_⟩
    rw [isInside, kind_of_unmarked spoken unmarked, sinceHeader_other (by decide)]
    simp

theorem Reads.follows (h : Reads m place lines last) (hplace : place.Follows kinds) :
    last.Follows (kinds ++ kindsFrom m place.isInside lines) := by
  induction h generalizing kinds with
  | nil => simpa [kindsFrom] using hplace
  | cons head _ ih =>
    rw [kindsFrom, ← head.isInside_eq, List.append_cons]
    exact ih (hplace.move head)

/-- The lines that lead to a place have met a transition after the last header exactly if the
place is among the transitions of a room and some have been read. -/
theorem awaitsTransition_iff (h : Reads m .preamble (lines.map trim) place) :
    AwaitsTransition (Story.kinds m lines) ↔
      ¬ ∃ finished room, place = .listing finished room ∧ room.transitions ≠ [] := by
  have hstart : Place.preamble.Follows [] := List.not_mem_nil
  have hfollows : place.Follows (Story.kinds m lines) := h.follows hstart
  cases place with
  | preamble => simp [AwaitsTransition, show _ ∉ _ from hfollows]
  | describing => simp [AwaitsTransition, hfollows.2]
  | listing finished room => simp [AwaitsTransition, hfollows.1, ← hfollows.2]

/-! ## Rooms that go on -/

/-- The rooms at a place, after the room that was open has got more transitions, or rooms after
it. -/
inductive Place.Continues (finished : List Room) (room : Room) : Place → Prop where
  /-- still among the transitions of the room -/
  | same (more : List Transition) : Continues finished room
      (.listing finished { room with transitions := room.transitions ++ more })
  /-- inside of the description of a later room -/
  | describing (more : List Transition) (later : List Room) (id title : Text)
      (description : List Text) : Continues finished room
        (.describing (finished ++ { room with transitions := room.transitions ++ more } :: later)
          id title description)
  /-- among the transitions of a later room -/
  | listing (more : List Transition) (later : List Room) (last : Room) :
      Continues finished room
        (.listing (finished ++ { room with transitions := room.transitions ++ more } :: later) last)

theorem Place.Continues.move (h : place.Continues finished room) (hmove : Move m place line next) :
    next.Continues finished room := by
  cases hmove with
  | skip => exact h
  | enter outside =>
    cases h with
    | same more => exact .describing more [] _ _ _
    | describing => exact outside.elim
    | listing more later last =>
      rw [roomsBefore, List.append_assoc, List.cons_append]
      exact .describing more (later ++ [last]) _ _ _
  | close =>
    cases h with
    | describing more later => exact .listing more later _
  | describe =>
    cases h with
    | describing more later => exact .describing more later _ _ _
  | @list _ _ _ t =>
    cases h with
    | same more =>
      rw [List.append_assoc]
      exact .same (more ++ [t])
    | listing more later => exact .listing more later _

theorem Place.continues_self (finished : List Room) (room : Room) :
    (Place.listing finished room).Continues finished room := by
  have hsame :
      (Place.listing finished { room with transitions := room.transitions ++ [] }).Continues
        finished room := .same []
  rwa [List.append_nil] at hsame

theorem Place.Continues.reads (h : place.Continues finished room)
    (hreads : Reads m place lines last) : last.Continues finished room := by
  induction hreads with
  | nil => exact h
  | cons head _ ih => exact ih (h.move head)

/-- The rooms of a story are the ones that were finished at a place on the way, and then the one
that was open, with more transitions. -/
theorem Reads.exists_rooms {finished' : List Room} {room' : Room}
    (h : Reads m (.listing finished room) lines (.listing finished' room')) :
    ∃ more later, finished' ++ [room'] =
      finished ++ { room with transitions := room.transitions ++ more } :: later := by
  cases (Place.continues_self finished room).reads h with
  | same more => exact ⟨more, [], rfl⟩
  | listing more later => exact ⟨more, later ++ [room'], by simp⟩

theorem exists_missingPart_of_finish {e : StoryError} (h : finish place = .error e) :
    ∃ part, e.missingPart? = some part := by
  have hline := line?_of_finish h
  cases e with
  | malformedLine => cases hline
  | duplicateRoom => cases hline
  | emptySeparator => exact absurd h (finish_ne_emptySeparator place)
  | noRooms => exact ⟨_, rfl⟩
  | unclosedDescription => exact ⟨_, rfl⟩
  | noTransitions => exact ⟨_, rfl⟩

end Story.Reader

/-! ## Lines that break off -/

namespace Story

open Reader

variable {m : Markers} {front back lines : List Text} {place : Place} {story : Story}

/-- Lines that end while a transition is awaited are complained about. -/
theorem exists_missing_of_awaits (h : Reads m .preamble (front.map trim) place)
    (hawait : AwaitsTransition (kinds m front)) :
    ∃ e part, Story.read m front = .error e ∧ e.missingPart? = some part := by
  rw [read_of_reads h]
  cases hfinish : finish place with
  | error e =>
    obtain ⟨part, hpart⟩ := exists_missingPart_of_finish hfinish
    exact ⟨e, part, rfl, hpart⟩
  | ok cut =>
    obtain ⟨finished, room, rfl, hrooms, hne⟩ := finish_eq_ok_iff.mp hfinish
    have hroom : room.transitions ≠ [] := hne room (by rw [hrooms]; simp)
    exact absurd ⟨finished, room, rfl, hroom⟩ ((awaitsTransition_iff h).mp hawait)

/-- Lines of a story that end while none is awaited hold its start. -/
theorem exists_start_of_read (h : Story.read m (front ++ back) = .ok story)
    (hnot : ¬ AwaitsTransition (kinds m front)) :
    ∃ cut, Story.read m front = .ok cut ∧ cut.IsStartOf story := by
  obtain ⟨finished, room, hreads, hrooms, hne⟩ := read_eq_ok_iff.mp h
  rw [List.map_append] at hreads
  obtain ⟨place, hplace, hback⟩ := hreads.split
  obtain ⟨finished', room', rfl, hroom⟩ := not_not.mp (mt (awaitsTransition_iff hplace).mpr hnot)
  obtain ⟨more, later, hall⟩ := hback.exists_rooms
  rw [← hrooms] at hall
  refine ⟨⟨finished' ++ [room'], by simp⟩, read_eq_ok_iff.mpr ⟨_, _, hplace, rfl, ?_⟩,
    finished', room', more, later, rfl, hroom, hall⟩
  intro r hr
  rcases List.mem_append.mp hr with hr | hr
  · exact hne r (hall ▸ List.mem_append_left _ hr)
  · rwa [List.mem_singleton.mp hr]

/-- Lines of a story that break off are never refused.  They are incomplete exactly as long as
they hold no header or no transition after the last one; else the story that is read is the
start of the whole one. -/
theorem read_of_front (h : Story.read m lines = .ok story) (hfront : front <+: lines) :
    ¬ IsRefused m front ∧
    ((∃ e part, Story.read m front = .error e ∧ e.missingPart? = some part) ↔
      AwaitsTransition (kinds m front)) ∧
    (¬ AwaitsTransition (kinds m front) →
      ∃ cut, Story.read m front = .ok cut ∧ cut.IsStartOf story) := by
  obtain ⟨back, rfl⟩ := hfront
  obtain ⟨finished, room, hreads, -⟩ := read_eq_ok_iff.mp h
  rw [List.map_append] at hreads
  obtain ⟨place, hplace, -⟩ := hreads.split
  refine ⟨not_isRefused_of_reads hplace, ⟨?_, exists_missing_of_awaits hplace⟩,
    exists_start_of_read h⟩
  intro herror
  obtain ⟨e, part, he, -⟩ := herror
  by_contra hnot
  obtain ⟨cut, hcut, -⟩ := exists_start_of_read h hnot
  rw [hcut] at he
  cases he

/-- A quay with two choices, and an isle. -/
def quayLines : List Text :=
  ["Rquay: The quay".toList, "# fog".toList, ";;;".toList, "# boats".toList,
    ": Row -> isle".toList, ": Wait -> quay?1".toList,
    "Risle: The isle".toList, ";;;".toList, "=)".toList]

def quay : Story where
  rooms :=
    [⟨"quay".toList, "The quay".toList, "# fog".toList,
        [.choice ⟨"Row".toList, "isle".toList, none⟩,
          .choice ⟨"Wait".toList, "quay".toList, some "1".toList⟩]⟩,
      ⟨"isle".toList, "The isle".toList, [], [.ending .success]⟩]
  rooms_ne_nil := by simp

/-- Broken off after the first choice, the quay is read without the other one and without the
isle; before that choice it is incomplete. -/
theorem read_of_front_quay :
    Story.read .standard quayLines = .ok quay ∧
      (∃ e part, Story.read .standard (quayLines.take 4) = .error e ∧
        e.missingPart? = some part) ∧
      ∃ cut, Story.read .standard (quayLines.take 5) = .ok cut ∧ cut.IsStartOf quay := by
  have hquay : Story.read .standard quayLines = .ok quay := rfl
  have hbefore := (read_of_front hquay (List.take_prefix 4 quayLines)).2.1.mpr (by decide)
  have hsettled : ¬ AwaitsTransition (kinds .standard (quayLines.take 5)) := by decide
  have hcut := (read_of_front hquay (List.take_prefix 5 quayLines)).2.2 hsettled
  exact ⟨hquay, hbefore, hcut⟩

end Story

end Gamebook
