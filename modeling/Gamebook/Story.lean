import Gamebook.Fault
import Gamebook.Room
set_option autoImplicit false

/-!
# Stories

A story is its rooms in the order in which they are written.  It starts in the
first one, unless a bookmark says otherwise.
-/

namespace Gamebook

/-- The rooms of a story, at least one. -/
structure Story where
  rooms : List Room
  rooms_ne_nil : rooms ≠ []
  deriving DecidableEq, Repr

namespace Story

/-- The story with these rooms. -/
def ofRooms (rooms : List Room) : Except Fault Story :=
  if h : rooms = [] then .error .noRooms else .ok ⟨rooms, h⟩

/-- The first room. -/
def opening (s : Story) : Room := s.rooms.head s.rooms_ne_nil

/-- The ids of the rooms in order. -/
def ids (s : Story) : List Text := s.rooms.map (·.id)

/-- The first room with an id. -/
def find? (s : Story) (id : Text) : Option Room := s.rooms.find? (·.id = id)

/-- Some room has the id. -/
def contains (s : Story) (id : Text) : Bool := (s.find? id).isSome

/-- The id of the room to start in: the one asked for, or the first room's when
none or an empty one is asked for. -/
def startId (s : Story) : Option Text → Text
  | none | some [] => s.opening.id
  | some id => id

end Story

end Gamebook
