import Gamebook.Lot
import Gamebook.Story
set_option autoImplicit false

/-!
# Sessions

A session is one play of a story: the room the reader stands in, or the outcome
once the story has ended, and the state of the dice.  Every operation gives its
answer together with the session after it, also when the answer is an error.
-/

namespace Gamebook

/-- Where a play of a story has got to. -/
inductive Position where
  /-- The reader stands in the room with this id, which the story may lack. -/
  | active (room : Text)
  /-- The story has ended. -/
  | finished (outcome : Outcome)
  deriving DecidableEq, Repr, Inhabited

/-- One play of a story, with dice whose states have type `σ`. -/
structure Session (σ : Type) where
  story : Story
  /-- The path of the file that the story was read from. -/
  source? : Option Text
  position : Position
  luck : σ

/-- What the reader is shown of a room. -/
structure View where
  roomId : Text
  title : Text
  description : Text
  /-- The texts of the choices that the reader can make. -/
  choices : List Text
  /-- Nothing but an ending leads out of the room. -/
  isTerminal : Bool
  deriving DecidableEq, Repr, Inhabited

/-- One move of a session. -/
structure Step where
  /-- The id of the room that is left. -/
  origin : Text
  /-- The id of the room that is entered, unless the story ends. -/
  destination? : Option Text
  /-- The outcome, if the story ends. -/
  outcome? : Option Outcome
  /-- The reader has not chosen the move. -/
  automatic : Bool
  deriving DecidableEq, Repr, Inhabited

/-- Why an operation of a session fails. -/
inductive SessionError where
  /-- The story has no room with the id of the room the reader stands in. -/
  | unknownRoom (room : Text)
  /-- No ending and no choice leads out of the room. -/
  | deadEnd (room : Text)
  /-- The room has no choice with the number. -/
  | invalidChoice (index : Int) (room : Text)
  /-- The story has ended. -/
  | alreadyEnded
  /-- The operation meets a fault. -/
  | fault (fault : Fault)
  deriving DecidableEq, Repr, Inhabited

/-- What is said about a failed operation. -/
def SessionError.message : SessionError → Text
  | .unknownRoom room => "Room '".toList ++ room ++ "' does not exist in this story.".toList
  | .deadEnd room => "Room '".toList ++ room ++ "' has no usable transitions.".toList
  | .invalidChoice index room =>
    "Choice index ".toList ++ Text.ofInt index ++ " is invalid for room '".toList ++ room
      ++ "'.".toList
  | .alreadyEnded => "The story has already ended.".toList
  | .fault f => f.message

/-- Why a number makes no choice in a room.  The message tells the number. -/
def SessionError.ofIndex (index : Int) (room : Text) : SessionError :=
  if isUnwritten index then .fault .unwritten else .invalidChoice index room

/-- What the reader is shown of a room. -/
def Room.view (r : Room) : View :=
  ⟨r.id, r.title, r.description, (Transition.manual r.transitions).map (·.text),
    (Transition.ending? r.transitions).isSome⟩

namespace Session

variable {σ : Type}

/-- A play of a story from its start, or from the room asked for. -/
def start (story : Story) (source? start? : Option Text) (luck : σ) : Session σ :=
  ⟨story, source?, .active (story.startId start?), luck⟩

/-- The story has ended. -/
def isFinished (s : Session σ) : Bool :=
  match s.position with
  | .active _ => false
  | .finished _ => true

/-- The outcome, once the story has ended. -/
def outcome? (s : Session σ) : Option Outcome :=
  match s.position with
  | .active _ => none
  | .finished outcome => some outcome

/-- The id of the room the reader stands in. -/
def roomId (s : Session σ) : Except SessionError Text :=
  match s.position with
  | .active id => .ok id
  | .finished _ => .error .alreadyEnded

/-- The room the reader stands in. -/
def room (s : Session σ) : Except SessionError Room :=
  match s.roomId with
  | .error e => .error e
  | .ok id =>
    match s.story.find? id with
    | none => .error (.unknownRoom id)
    | some r => .ok r

/-- What the reader is shown. -/
def view (s : Session σ) : Except SessionError View := s.room.map Room.view

/-- The session in another room. -/
def enter (s : Session σ) (id : Text) : Session σ := { s with position := .active id }

/-- The session after the end of the story. -/
def conclude (s : Session σ) (outcome : Outcome) : Session σ :=
  { s with position := .finished outcome }

/-- The move that the reader has no say in: the ending of a room that leaves
nothing else, or the choice that the lot falls to.  There is none when the reader
has to choose. -/
def advance (dice : Dice σ) (s : Session σ) : Except SessionError (Option Step) × Session σ :=
  match s.room with
  | .error e => (.error e, s)
  | .ok r =>
    match Transition.ending? r.transitions with
    | some outcome => (.ok (some ⟨r.id, none, some outcome, true⟩), s.conclude outcome)
    | none =>
      match Lot.draw dice r.transitions s.luck with
      | (.error e, luck) => (.error (.fault (.overlong e)), { s with luck := luck })
      | (.ok (some target), luck) =>
        (.ok (some ⟨r.id, some target, none, true⟩), { s with luck := luck }.enter target)
      | (.ok none, luck) =>
        let s := { s with luck := luck }
        if Transition.manual r.transitions = [] then (.error (.deadEnd r.id), s)
        else (.ok none, s)

/-- The move by the reader's choice with a number, counted from zero among the
choices that are shown. -/
def choose (s : Session σ) (index : Int) : Except SessionError Step × Session σ :=
  match s.room with
  | .error e => (.error e, s)
  | .ok r =>
    match (if index < 0 then none else (Transition.manual r.transitions)[index.toNat]?) with
    | none => (.error (.ofIndex index r.id), s)
    | some c => (.ok ⟨r.id, some c.target, none, false⟩, s.enter c.target)

/-- The reader gives up, which is a failure. -/
def quit (s : Session σ) : Except SessionError Step × Session σ :=
  match s.roomId with
  | .error e => (.error e, s)
  | .ok id => (.ok ⟨id, none, some .failure, false⟩, s.conclude .failure)

end Session

end Gamebook
