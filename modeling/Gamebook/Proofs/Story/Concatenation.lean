import Gamebook.Proofs.Story.Kinds
import Gamebook.Proofs.Story.Refusals
set_option autoImplicit false

/-!
# Stories that are put one after the other

After a story the reader takes the lines of another one as it takes them from the start, with
the rooms of the first story behind it (`Place.behind`), until a header has the id of a room
of the first story.  So the lines of two stories hold the rooms of both, or the first header of
the second story with an id of the first one is refused.
-/

namespace Gamebook

open Text

namespace Story.Reader

/-- The place with rooms of another story behind it, the last of which has been open until
then. -/
def Place.behind (finished : List Room) (room : Room) : Place → Place
  | .preamble => .listing finished room
  | .describing later id title description =>
    .describing (finished ++ room :: later) id title description
  | .listing later last => .listing (finished ++ room :: later) last

section

variable {m : Markers} {place next last : Place} {line : Text} {finished : List Room} {room : Room}

theorem Place.isOutside_behind (h : place.IsOutside) :
    (place.behind finished room).IsOutside := by
  cases place with
  | preamble => trivial
  | describing => exact h.elim
  | listing => trivial

theorem Place.roomsBefore_behind (h : place.IsOutside) :
    (place.behind finished room).roomsBefore = finished ++ room :: place.roomsBefore := by
  cases place with
  | preamble => rfl
  | describing => exact h.elim
  | listing => simp [behind, roomsBefore]

theorem Place.ids_behind :
    (place.behind finished room).ids = (finished ++ [room]).map (·.id) ++ place.ids := by
  cases place <;> simp [behind, ids]

/-- Rooms behind a place change what the reader does only at a header with the id of one of
them. -/
theorem step_behind (h : Move m place line next) :
    step m (place.behind finished room) line =
      if kind m place.isInside line = .header ∧
          idOfHeader m line ∈ (finished ++ [room]).map (·.id) then
        .error (.duplicate (idOfHeader m line))
      else .ok (next.behind finished room) := by
  cases h with
  | skip outside skipped =>
    rw [Place.isInside_eq_false outside, kind_of_skipped skipped, if_neg (by simp)]
    exact step_of_move (.skip (Place.isOutside_behind outside) skipped)
  | @enter _ _ s id title outside spoken mark read new =>
    rw [Place.isInside_eq_false outside, kind_of_mark spoken mark, idOfHeader_eq mark read]
    split
    · rename_i hold
      refine step_eq_duplicate_iff.mpr
        ⟨Place.isOutside_behind outside, spoken, s, title, mark, read, ?_⟩
      rw [Place.ids_behind]
      exact List.mem_append_left _ hold.2
    · rename_i hold
      have hnew : id ∉ (place.behind finished room).ids := by
        rw [Place.ids_behind, List.mem_append, not_or]
        exact ⟨fun hmem => hold ⟨rfl, hmem⟩, new⟩
      rw [step_of_move (.enter (Place.isOutside_behind outside) spoken mark read hnew),
        Place.roomsBefore_behind outside]
      rfl
  | close =>
    rw [if_neg (by simp [Place.isInside, kind])]
    simp [Place.behind, step]
  | describe going =>
    rw [if_neg (by simp [Place.isInside, kind, going])]
    exact step_of_move (.describe going)
  | list spoken unmarked going read =>
    rw [Place.isInside, kind_of_unmarked spoken unmarked, if_neg (by simp)]
    exact step_of_move (.list spoken unmarked going read)

/-- With the rooms of a story behind it, the reader gets as far as without them, unless a
header has the id of one of them: it stops at the first such header. -/
theorem readFrom_behind {raw : List Text} (h : Reads m place (raw.map trim) last)
    (offset number : Nat) :
    readFrom m (offset + number) (place.behind finished room) raw =
      match (headingsFrom m number place.isInside (raw.map trim)).find?
        (·.id ∈ (finished ++ [room]).map (·.id)) with
      | some h => .error (.duplicateRoom (offset + h.number) h.line h.id)
      | none => .ok (last.behind finished room) := by
  induction raw generalizing place number with
  | nil =>
    cases h
    rfl
  | cons line rest ih =>
    cases h with
    | cons head tail =>
      rw [readFrom, step_behind head, List.map_cons, headingsFrom, ← head.isInside_eq]
      have hrest := ih tail (number + 1)
      by_cases hheader : kind m place.isInside (trim line) = .header
      · by_cases hold : idOfHeader m (trim line) ∈ (finished ++ [room]).map (·.id)
        · simp only [hheader, hold, and_self, if_true, List.find?_cons, decide_true, Refusal.error]
        · simp only [hheader, hold, and_false, if_true, if_false, List.find?_cons, decide_false]
          exact hrest
      · simp only [hheader, false_and, if_false]
        exact hrest

/-- The lines of a second story are read from behind the last room of the first one. -/
theorem readFrom_append_of_reads {front back : List Text} {finished' : List Room} {room' : Room}
    (hfront : Reads m .preamble (front.map trim) (.listing finished room))
    (hback : Reads m .preamble (back.map trim) (.listing finished' room')) :
    readFrom m 1 .preamble (front ++ back) =
      match (headings m back).find? (·.id ∈ (finished ++ [room]).map (·.id)) with
      | some h => .error (.duplicateRoom (front.length + h.number) h.line h.id)
      | none => .ok (.listing (finished ++ room :: finished') room') := by
  rw [readFrom_append, readFrom_eq_ok_iff.mpr hfront, Nat.add_comm]
  exact readFrom_behind hback front.length 1

end

end Story.Reader

namespace Story

open Reader

/-- The lines of two stories that are read as one.  The rooms of the second are those of its
headers, in order.  If none of their ids is the one of a room of the first story, the rooms of
both are read; else the first header with such an id is refused, with its number counted on
from the lines of the first story. -/
theorem read_append {m : Markers} {front back : List Text} {first second : Story}
    (hfirst : Story.read m front = .ok first) (hsecond : Story.read m back = .ok second) :
    (headings m back).map (·.id) = second.ids ∧
    ((∀ id ∈ second.ids, id ∉ first.ids) →
      ∃ both, Story.read m (front ++ back) = .ok both ∧
        both.rooms = first.rooms ++ second.rooms) ∧
    ((∃ id ∈ second.ids, id ∈ first.ids) →
      ∃ h, (headings m back).find? (·.id ∈ first.ids) = some h ∧
        Story.read m (front ++ back) =
          .error (.duplicateRoom (front.length + h.number) h.line h.id)) := by
  obtain ⟨finished, room, hreads, hrooms, hne⟩ := read_eq_ok_iff.mp hfirst
  obtain ⟨finished', room', hreads', hrooms', hne'⟩ := read_eq_ok_iff.mp hsecond
  have hids : (headings m back).map (·.id) = second.ids := headings_of_read hsecond
  have hboth := readFrom_append_of_reads hreads hreads'
  rw [← hrooms, ← ids] at hboth
  refine ⟨hids, ?_, ?_⟩
  · intro hnew
    have hnone : (headings m back).find? (·.id ∈ first.ids) = none := by
      rw [List.find?_eq_none]
      intro h hh
      have hid : h.id ∈ second.ids := hids ▸ List.mem_map_of_mem hh
      simpa using hnew h.id hid
    have hall : first.rooms ++ second.rooms = (finished ++ room :: finished') ++ [room'] := by
      rw [hrooms, hrooms']
      simp
    refine ⟨⟨first.rooms ++ second.rooms, by simp [first.rooms_ne_nil]⟩, ?_, rfl⟩
    rw [Story.read, hboth, hnone]
    refine finish_eq_ok_iff.mpr ⟨_, _, rfl, hall, ?_⟩
    intro r hr
    exact (List.mem_append.mp hr).elim (hne r) (hne' r)
  · intro hold
    obtain ⟨id, hid, hmem⟩ := hold
    rw [← hids] at hid
    obtain ⟨h, hh, rfl⟩ := List.mem_map.mp hid
    cases hfind : (headings m back).find? (·.id ∈ first.ids) with
    | none => exact absurd hmem (by simpa using List.find?_eq_none.mp hfind h hh)
    | some found =>
      refine ⟨found, rfl, read_of_readFrom_error ?_⟩
      rw [hboth, hfind]

/-- A yard with an attic. -/
def yardLines : List Text :=
  ["Ryard: The yard".toList, ";;;".toList, ": Enter -> attic".toList,
    "Rattic: The attic".toList, ";;;".toList, "=)".toList]

def yard : Story where
  rooms :=
    [⟨"yard".toList, "The yard".toList, [], [.choice ⟨"Enter".toList, "attic".toList, none⟩]⟩,
      ⟨"attic".toList, "The attic".toList, [], [.ending .success]⟩]
  rooms_ne_nil := by simp

/-- A mill with an attic, and with a description that could be taken for a header. -/
def millLines : List Text :=
  ["# by the river".toList, "Rmill: The mill".toList, "Rattic: see above".toList, ";;;".toList,
    ": Climb -> attic".toList, "R attic : Under the roof".toList, ";;;".toList, "=(".toList]

def mill : Story where
  rooms :=
    [⟨"mill".toList, "The mill".toList, "Rattic: see above".toList,
        [.choice ⟨"Climb".toList, "attic".toList, none⟩]⟩,
      ⟨"attic".toList, "Under the roof".toList, [], [.ending .failure]⟩]
  rooms_ne_nil := by simp

/-- The sixth line of the mill is refused, as the twelfth. -/
theorem read_append_mill :
    Story.read .standard yardLines = .ok yard ∧ Story.read .standard millLines = .ok mill ∧
      Story.read .standard (yardLines ++ millLines) =
        .error (.duplicateRoom 12 "R attic : Under the roof".toList "attic".toList) := by
  have hyard : Story.read .standard yardLines = .ok yard := rfl
  have hmill : Story.read .standard millLines = .ok mill := rfl
  obtain ⟨h, hfind, hread⟩ := (read_append hyard hmill).2.2 ⟨"attic".toList, by decide, by decide⟩
  have hfirst : (headings .standard millLines).find? (·.id ∈ yard.ids) =
      some ⟨6, "R attic : Under the roof".toList, "attic".toList⟩ := by decide
  obtain rfl := Option.some.inj (hfind.symm.trans hfirst)
  exact ⟨hyard, hmill, hread⟩

end Story

end Gamebook
