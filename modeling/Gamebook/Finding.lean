import Gamebook.Text.Digits
set_option autoImplicit false

/-!
# Findings

What can be wrong with a story, how bad it is, and how it is reported: as a
notice with a code, a message and details, printed in one line.
-/

namespace Gamebook

/-! ## Notices -/

/-- How bad a finding is. -/
inductive Severity where
  | error
  | warning
  deriving DecidableEq, Repr, Inhabited

/-- The word for a severity. -/
def Severity.word : Severity → Text
  | .error => "ERROR".toList
  | .warning => "WARN".toList

/-- A remark about a story as it is printed: a word for the severity, a code, a
message, and named details. -/
structure Notice where
  severity : Text
  code : Text
  message : Text
  details : List (Text × Text)
  deriving DecidableEq, Repr, Inhabited

namespace Notice

/-- The details in brackets. -/
def detailText (n : Notice) : Text :=
  [' '].intercalate (n.details.map fun (key, value) => key ++ '=' :: value)

/-- A notice in one line; without details there are no brackets. -/
def line (n : Notice) : Text :=
  '[' :: n.severity ++ "] ".toList ++ n.code ++ ": ".toList ++ n.message
    ++ if n.detailText = [] then [] else " (".toList ++ n.detailText ++ [')']

/-- The notice is about an error. -/
def isError (n : Notice) : Bool := n.severity = Severity.error.word

end Notice

/-! ## Findings -/

/-- Something wrong with a story.  Positions count all transitions of a room, from
zero. -/
inductive Finding where
  /-- The weight at a position is no natural number. -/
  | invalidWeight (room : Text) (position : Nat) (weight : Text)
  /-- All choices of a room are to be drawn by lot, and the lot falls to none. -/
  | deadEnd (room : Text)
  /-- The story lacks the room to start in. -/
  | missingStart (room : Text)
  /-- The story lacks the room that the choice at a position leads to. -/
  | missingTarget (room : Text) (position : Nat) (target : Text)
  /-- No choices lead from the start to a room. -/
  | unreachable (room : Text)
  /-- No choices lead from the start to an ending. -/
  | endless (start : Text)
  deriving DecidableEq, Repr, Inhabited

namespace Finding

/-- Rooms that are not needed spoil no play; everything else does. -/
def severity : Finding → Severity
  | .unreachable _ | .endless _ => .warning
  | _ => .error

/-- The code of a finding. -/
def code : Finding → Text
  | .invalidWeight .. => "INVALID_WEIGHT".toList
  | .deadEnd _ => "DEAD_END".toList
  | .missingStart _ => "MISSING_START_ROOM".toList
  | .missingTarget .. => "MISSING_ROOM_REF".toList
  | .unreachable _ => "UNREACHABLE_ROOM".toList
  | .endless _ => "NO_TERMINAL_REACHABLE".toList

/-- What is said about a finding. -/
def message : Finding → Text
  | .invalidWeight .. => "Weight must be a non-negative integer.".toList
  | .deadEnd _ => "Room offers no manual choice and its weights can never be drawn.".toList
  | .missingStart _ => "Start room is not declared in the story.".toList
  | .missingTarget .. => "Transition references missing room.".toList
  | .unreachable _ => "Room is unreachable from the start room.".toList
  | .endless _ => "No ending can be reached from the start room.".toList

/-- The detail that names a room. -/
def roomDetail (id : Text) : Text × Text := ("room_id".toList, id)

/-- The detail that names a transition of a room. -/
def positionDetail (position : Nat) : Text × Text :=
  ("field_path".toList, "transitions[".toList ++ Text.ofNat position ++ [']'])

/-- The details of a finding. -/
def details : Finding → List (Text × Text)
  | .invalidWeight room position weight =>
    [roomDetail room, positionDetail position, ("weight".toList, weight)]
  | .missingTarget room position target =>
    [roomDetail room, positionDetail position, ("referenced_id".toList, target)]
  | .deadEnd room | .missingStart room | .unreachable room | .endless room =>
    [roomDetail room]

/-- The notice of a finding. -/
def notice (f : Finding) : Notice := ⟨f.severity.word, f.code, f.message, f.details⟩

end Finding

end Gamebook
