import Gamebook.Proofs.Story.Lawful
set_option autoImplicit false

/-!
# What lines are for

Whatever the marks are, a line is told from others by its marks and by one thing more:
whether it stands inside of a description.  This module labels the lines of a text in this
way, without rooms or ids in view, and lists the headers among them with their numbers.  A
reader that takes the lines follows the labels: each of its moves is made at a line of one
kind, and the rooms that it enters are those of the headers.
-/

namespace Gamebook

open Text Story.Reader

/-! ## Kinds -/

namespace Story

/-- What a trimmed line is for. -/
inductive Kind where
  /-- an empty line or a comment outside of descriptions -/
  | silence
  /-- the header of a room -/
  | header
  /-- a line of a description -/
  | description
  /-- the line that ends a description -/
  | descriptionEnd
  /-- anything else outside of descriptions, where only transitions are left -/
  | transition
  deriving DecidableEq, Repr, Inhabited

/-- The line after one of this kind stands inside of a description. -/
def Kind.leadsInside : Kind → Bool
  | .header | .description => true
  | .silence | .descriptionEnd | .transition => false

/-- The kind of a line inside of a description or outside. -/
def kind (m : Markers) (inside : Bool) (line : Text) : Kind :=
  if inside then
    if line = m.descriptionEnd then .descriptionEnd else .description
  else if isSkipped m line then .silence
  else if (after? m.room line).isSome then .header
  else .transition

/-- The kinds of trimmed lines in order, the first of which stands inside of a description
or outside. -/
def kindsFrom (m : Markers) : Bool → List Text → List Kind
  | _, [] => []
  | inside, line :: rest => kind m inside line :: kindsFrom m (kind m inside line).leadsInside rest

/-- The kinds of the lines of a text. -/
def kinds (m : Markers) (lines : List Text) : List Kind := kindsFrom m false (lines.map trim)

/-! ## Headings -/

/-- A header with its number among the lines and the id in it. -/
structure Heading where
  number : Nat
  line : Text
  id : Text
  deriving DecidableEq, Repr, Inhabited

/-- The id in a header: what stands between the room mark and the first title mark. -/
def idOfHeader (m : Markers) (line : Text) : Text :=
  match cutFirst? m.title (line.drop m.room.length) with
  | some (before, _) => trim before
  | none => []

/-- The headers among trimmed lines, the first of which has the given number. -/
def headingsFrom (m : Markers) : Nat → Bool → List Text → List Heading
  | _, _, [] => []
  | number, inside, line :: rest =>
    let later := headingsFrom m (number + 1) (kind m inside line).leadsInside rest
    if kind m inside line = .header then ⟨number, line, idOfHeader m line⟩ :: later else later

/-- The headers among the lines of a text. -/
def headings (m : Markers) (lines : List Text) : List Heading :=
  headingsFrom m 1 false (lines.map trim)

variable {m : Markers} {line : Text}

theorem kind_of_skipped (h : isSkipped m line = true) : kind m false line = .silence := by
  simp [kind, h]

theorem kind_of_mark {s : Text} (h : isSkipped m line = false) (hmark : line = m.room ++ s) :
    kind m false line = .header := by
  simp [kind, h, after?_eq_some_iff.mpr hmark]

theorem kind_of_unmarked (h : isSkipped m line = false) (hmark : ¬ m.room <+: line) :
    kind m false line = .transition := by
  have hnone : after? m.room line = none :=
    after?_eq_none_iff.mpr fun s heq => hmark ⟨s, heq.symm⟩
  simp [kind, h, hnone]

theorem idOfHeader_eq {s id title : Text} (hmark : line = m.room ++ s)
    (hread : header m s = .ok (id, title)) : idOfHeader m line = id := by
  obtain ⟨hne, before, tail, hcut, -, rfl, -⟩ := header_eq_ok_iff.mp hread
  rw [idOfHeader, hmark, List.drop_left, (cutFirst?_eq_some_iff hne).mpr hcut]

end Story

/-! ## The kinds of lines that a reader takes -/

namespace Story.Reader

variable {m : Markers} {place next last : Place} {line : Text} {lines : List Text}

/-- The place is inside of a description. -/
def Place.isInside : Place → Bool
  | .describing .. => true
  | .preamble | .listing .. => false

theorem Place.isInside_eq_false (h : place.IsOutside) : place.isInside = false := by
  cases place with
  | preamble => rfl
  | describing => exact h.elim
  | listing => rfl

/-- A move leads inside of a description exactly if its line does. -/
theorem Move.isInside_eq (h : Move m place line next) :
    next.isInside = (kind m place.isInside line).leadsInside := by
  cases h with
  | skip outside skipped =>
    rw [Place.isInside_eq_false outside, kind_of_skipped skipped]
    rfl
  | enter outside spoken mark =>
    rw [Place.isInside_eq_false outside, kind_of_mark spoken mark]
    rfl
  | close => simp [Place.isInside, kind, Kind.leadsInside]
  | describe going => simp [Place.isInside, kind, going, Kind.leadsInside]
  | list spoken unmarked =>
    rw [Place.isInside, Place.isInside, kind_of_unmarked spoken unmarked]
    rfl

/-- A move enters a room exactly if its line is a header, and it is the room of the header. -/
theorem Move.ids_eq (h : Move m place line next) :
    next.ids = place.ids ++
      if kind m place.isInside line = .header then [idOfHeader m line] else [] := by
  cases h with
  | skip outside skipped => simp [Place.isInside_eq_false outside, kind_of_skipped skipped]
  | enter outside spoken mark read =>
    simp [Place.isInside_eq_false outside, kind_of_mark spoken mark, idOfHeader_eq mark read,
      Place.ids, Place.ids_of_isOutside outside]
  | close => simp [Place.ids, Place.isInside, kind]
  | describe going => simp [Place.ids, Place.isInside, kind, going]
  | list spoken unmarked => simp [Place.ids, Place.isInside, kind_of_unmarked spoken unmarked]

/-- The rooms that are entered are those of the headers. -/
theorem Reads.ids_eq (h : Reads m place lines last) (number : Nat) :
    last.ids = place.ids ++ (headingsFrom m number place.isInside lines).map (·.id) := by
  induction h generalizing number with
  | nil => simp [headingsFrom]
  | cons head _ ih =>
    rw [ih (number + 1), head.ids_eq, head.isInside_eq, headingsFrom]
    split <;> simp

end Story.Reader

/-- The rooms of a story that is read are those of its headers, in order. -/
theorem Story.headings_of_read {m : Markers} {lines : List Text} {story : Story}
    (h : Story.read m lines = .ok story) : (headings m lines).map (·.id) = story.ids := by
  obtain ⟨finished, room, hreads, hrooms, -⟩ := Reader.read_eq_ok_iff.mp h
  have hids := hreads.ids_eq 1
  rw [Place.ids, Place.ids, List.nil_append] at hids
  rw [headings, ids, hrooms, List.map_append]
  exact hids.symm

end Gamebook
