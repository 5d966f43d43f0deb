import Gamebook.Markers
import Gamebook.Story
set_option autoImplicit false

/-!
# Reading a story

A story is read line by line, every line trimmed first.  A room starts with a
header; its description goes on until a line says that it ends; its transitions
go on until the next header.  The reader keeps the rooms that are finished and
the place it has got to, and each line moves the place or is refused.
-/

namespace Gamebook

/-- Why a text is not a story. -/
inductive StoryError where
  /-- A line that may not stand where it stands. -/
  | malformedLine (number : Nat) (line : Text)
  /-- A header with the id of an earlier room. -/
  | duplicateRoom (number : Nat) (line : Text) (room : Text)
  /-- There is no room at all. -/
  | noRooms
  /-- The description of the last room does not end. -/
  | unclosedDescription (room : Text)
  /-- A room without transitions. -/
  | noTransitions (room : Text)
  /-- A line has to be cut at a separator, and the separator is empty. -/
  | emptySeparator
  deriving DecidableEq, Repr, Inhabited

/-- The part of an incomplete story that is missing. -/
def StoryError.missingPart? : StoryError → Option Text
  | .noRooms => some "story declares no rooms".toList
  | .unclosedDescription room =>
    some ("room '".toList ++ room ++ "' never closed its description".toList)
  | .noTransitions room => some ("room '".toList ++ room ++ "' has no transitions".toList)
  | _ => none

/-- What is said about a text that is not a story. -/
def StoryError.message : StoryError → Text
  | .malformedLine number line | .duplicateRoom number line _ =>
    "Error parsing file on line: ".toList ++ Text.ofNat number ++ ": ".toList ++ line
  | .noRooms | .unclosedDescription _ | .noTransitions _ =>
    "Error parsing file: rooms or transitions not properly parsed.".toList
  | .emptySeparator => Fault.emptySeparator.message

namespace Story.Reader

/-- Why a line is refused; the number and the text of the line are known to
whoever hands it in. -/
inductive Refusal where
  | malformed
  | duplicate (room : Text)
  | emptySeparator
  deriving DecidableEq, Repr, Inhabited

/-- The refusal of a line with its number and text. -/
def Refusal.error (number : Nat) (line : Text) : Refusal → StoryError
  | .malformed => .malformedLine number line
  | .duplicate room => .duplicateRoom number line room
  | .emptySeparator => .emptySeparator

/-- Where the reader stands, with what it has read. -/
inductive Place where
  /-- Before the first header. -/
  | preamble
  /-- Inside the description of a room, after some of its lines. -/
  | describing (finished : List Room) (id title : Text) (description : List Text)
  /-- Among the transitions of a room, after some of them. -/
  | listing (finished : List Room) (room : Room)
  deriving DecidableEq, Repr, Inhabited

/-- The ids of the rooms whose headers have been read. -/
def Place.ids : Place → List Text
  | .preamble => []
  | .describing finished id _ _ => finished.map (·.id) ++ [id]
  | .listing finished room => finished.map (·.id) ++ [room.id]

/-- The rooms that a new header leaves behind. -/
def Place.roomsBefore : Place → List Room
  | .listing finished room => finished ++ [room]
  | _ => []

/-! ## Single lines -/

/-- A cut at the first occurrence of a separator that must not be empty. -/
def cutAt (separator s : Text) : Except Refusal (Option (Text × Text)) :=
  if separator = [] then .error .emptySeparator else .ok (Text.cutFirst? separator s)

/-- The id and the title in a header, from what follows its mark. -/
def header (m : Markers) (s : Text) : Except Refusal (Text × Text) :=
  match cutAt m.title s with
  | .error e => .error e
  | .ok none => .error .malformed
  | .ok (some (id, title)) =>
    if Text.trim id = [] then .error .malformed else .ok (Text.trim id, Text.trim title)

/-- The target and the weight in a choice, from what follows its separator.  The
weight follows the last weight mark, if there is one. -/
def destination (m : Markers) (s : Text) : Except Refusal (Text × Option Text) :=
  if m.weight = [] then .error .emptySeparator
  else
    match Text.cutLast? m.weight s with
    | some (target, weight) => .ok (Text.trim target, some (Text.trim weight))
    | none => .ok (Text.trim s, none)

/-- A choice, from what follows its mark. -/
def choice (m : Markers) (s : Text) : Except Refusal Choice :=
  match cutAt m.target s with
  | .error e => .error e
  | .ok none => .error .malformed
  | .ok (some (text, tail)) =>
    match destination m tail with
    | .error e => .error e
    | .ok (target, weight) =>
      if target = [] then .error .malformed else .ok ⟨Text.trim text, target, weight⟩

/-- The transition in a line, after other transitions of its room.  Nothing
follows an ending, and an ending follows nothing. -/
def transition (m : Markers) (earlier : List Transition) (line : Text) :
    Except Refusal Transition :=
  if earlier.any (·.isEnding) then .error .malformed
  else
    match Text.after? m.choice line with
    | some s => (choice m s).map .choice
    | none =>
      if line = m.success ∨ line = m.failure then
        if earlier = [] then
          .ok (.ending (if line = m.success then .success else .failure))
        else .error .malformed
      else .error .malformed

/-- The line says nothing: it is empty or a comment. -/
def isSkipped (m : Markers) (line : Text) : Bool :=
  line = [] || (Text.after? m.comment line).isSome

/-- The place after the header of a new room. -/
def enterRoom (m : Markers) (place : Place) (s : Text) : Except Refusal Place :=
  match header m s with
  | .error e => .error e
  | .ok (id, title) =>
    if place.ids.contains id then .error (.duplicate id)
    else .ok (.describing place.roomsBefore id title [])

/-! ## All lines -/

/-- The place after a trimmed line. -/
def step (m : Markers) (place : Place) (line : Text) : Except Refusal Place :=
  match place with
  | .describing finished id title description =>
    if line = m.descriptionEnd then
      .ok (.listing finished ⟨id, title, Text.joinLines description, []⟩)
    else .ok (.describing finished id title (description ++ [line]))
  | .preamble =>
    if isSkipped m line then .ok place
    else
      match Text.after? m.room line with
      | some s => enterRoom m place s
      | none => .error .malformed
  | .listing finished room =>
    if isSkipped m line then .ok place
    else
      match Text.after? m.room line with
      | some s => enterRoom m place s
      | none =>
        if line = m.descriptionEnd then .error .malformed
        else
          match transition m room.transitions line with
          | .error e => .error e
          | .ok t => .ok (.listing finished { room with transitions := room.transitions ++ [t] })

/-- The place after lines, the first of which has the given number. -/
def readFrom (m : Markers) : Nat → Place → List Text → Except StoryError Place
  | _, place, [] => .ok place
  | number, place, raw :: rest =>
    match step m place (Text.trim raw) with
    | .error e => .error (e.error number (Text.trim raw))
    | .ok next => readFrom m (number + 1) next rest

/-- The rooms, if each of them has transitions. -/
def complete (rooms : List Room) : Except StoryError (List Room) :=
  match rooms.find? (·.transitions.isEmpty) with
  | some room => .error (.noTransitions room.id)
  | none => .ok rooms

/-- The story, when its lines end at a place. -/
def finish : Place → Except StoryError Story
  | .preamble => .error .noRooms
  | .describing finished id _ _ =>
    match complete finished with
    | .error e => .error e
    | .ok _ => .error (.unclosedDescription id)
  | .listing finished room =>
    match complete (finished ++ [room]) with
    | .error e => .error e
    | .ok _ => .ok ⟨finished ++ [room], by simp⟩

end Story.Reader

/-- The story that lines hold, the line with the story mark not among them. -/
def Story.read (m : Markers) (lines : List Text) : Except StoryError Story :=
  match Reader.readFrom m 1 .preamble lines with
  | .error e => .error e
  | .ok place => Reader.finish place

end Gamebook
