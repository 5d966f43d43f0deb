import Gamebook.Bookmark
set_option autoImplicit false

/-!
# Operations of a session

Everything that can be done with a session, as one type, so that a run of a
session is a list of operations.  An operation answers or fails, and either way
leaves a session and a world behind.
-/

namespace Gamebook

/-- Something to be done with a session. -/
inductive Operation where
  /-- Show the room. -/
  | view
  /-- Give the room as it is written. -/
  | room
  /-- Give the id of the room. -/
  | roomId
  /-- Take the move that the reader has no say in. -/
  | advance
  /-- Take the move by a choice of the reader. -/
  | choose (index : Int)
  /-- Give up. -/
  | quit
  /-- Save a bookmark in the file at a path. -/
  | bookmark (path : Text)
  deriving DecidableEq, Repr, Inhabited

/-- What an operation answers. -/
inductive Answer where
  | view (view : View)
  | room (room : Room)
  | roomId (id : Text)
  /-- A move, or none because the reader has to choose. -/
  | moved (step? : Option Step)
  | saved (bookmark : Bookmark)
  deriving DecidableEq, Repr, Inhabited

/-- A session in a world. -/
structure Situation (σ : Type) where
  session : Session σ
  world : World

namespace Situation

variable {σ : Type}

/-- The answer of an operation that concerns the session alone. -/
def answer {α : Type} (form : α → Answer) : Except SessionError α → Except SaveError Answer
  | .ok a => .ok (form a)
  | .error e => .error (.session e)

/-- Does something with the session. -/
def perform (dice : Dice σ) (m : Markers) (s : Situation σ) :
    Operation → Except SaveError Answer × Situation σ
  | .view => (answer .view s.session.view, s)
  | .room => (answer .room s.session.room, s)
  | .roomId => (answer .roomId s.session.roomId, s)
  | .advance =>
    let (result, session) := s.session.advance dice
    (answer .moved result, { s with session := session })
  | .choose index =>
    let (result, session) := s.session.choose index
    (answer (.moved ∘ some) result, { s with session := session })
  | .quit =>
    let (result, session) := s.session.quit
    (answer (.moved ∘ some) result, { s with session := session })
  | .bookmark path =>
    let (result, world) := s.session.saveBookmark m s.world path
    (result.map .saved, { s with world := world })

/-- The answers to operations, one after the other, and the situation after the
last one.  A failed operation does not stop the run. -/
def run (dice : Dice σ) (m : Markers) (s : Situation σ) :
    List Operation → List (Except SaveError Answer) × Situation σ
  | [] => ([], s)
  | op :: rest =>
    let (result, s) := s.perform dice m op
    let (results, s) := s.run dice m rest
    (result :: results, s)

end Situation

end Gamebook
