import Gamebook.Markers
import Gamebook.Session
import Gamebook.World
set_option autoImplicit false

/-!
# Bookmarks

A bookmark remembers the path of a story file and the room to go on in.  Its file
has three lines: the bookmark mark, the path and the room.
-/

namespace Gamebook

/-- A place to go on with a story. -/
structure Bookmark where
  /-- The path of the story file, or of another bookmark. -/
  story : Text
  /-- The id of the room. -/
  room : Text
  deriving DecidableEq, Repr, Inhabited

/-- A line of a bookmark file that may be missing. -/
inductive BookmarkPart where
  | story
  | room
  deriving DecidableEq, Repr, Inhabited

/-- What a part of a bookmark is called. -/
def BookmarkPart.name : BookmarkPart → Text
  | .story => "story path".toList
  | .room => "room id".toList

namespace Bookmark

/-- The lines of a bookmark file. -/
def toLines (m : Markers) (b : Bookmark) : List Text := [m.bookmarkMagic, b.story, b.room]

/-- The bookmark in the lines after the bookmark mark, or the first part that is
missing or blank. -/
def ofLines : List Text → Except BookmarkPart Bookmark
  | [] => .error .story
  | story :: rest =>
    if Text.trim story = [] then .error .story
    else
      match rest with
      | [] => .error .room
      | room :: _ =>
        if Text.trim room = [] then .error .room else .ok ⟨Text.trim story, Text.trim room⟩

end Bookmark

/-! ## Saving -/

/-- Why a bookmark is not saved. -/
inductive SaveError where
  /-- The disk does not take the file. -/
  | unwritable (path : Text)
  /-- The session is in no state to be bookmarked. -/
  | session (error : SessionError)
  /-- Saving meets a fault. -/
  | fault (fault : Fault)
  deriving DecidableEq, Repr, Inhabited

/-- What is said about a bookmark that is not saved. -/
def SaveError.message : SaveError → Text
  | .unwritable path => "Error saving bookmark in ".toList ++ path
  | .session e => e.message
  | .fault f => f.message

/-- The error when the disk refuses the path of a file. -/
def SaveError.ofDisk (path : Text) : DiskError → SaveError
  | .embeddedNull => .fault (.disk .embeddedNull path)
  | _ => .unwritable path

/-- Writes lines to the file at a path, and gives the world after it.  The file is
opened, and so emptied, before its text is encoded. -/
def World.writeLines (w : World) (path : Text) (lines : List Text) : Except SaveError Unit × World :=
  let text := Text.unlines lines
  match w.disk.unencodable? text with
  | none =>
    match w.writeBytes (.ofText path) text.toBytes with
    | .ok w => (.ok (), w)
    | .error e => (.error (.ofDisk path e), w)
  | some strays =>
    match w.writeBytes (.ofText path) .empty with
    | .ok w => (.error (.fault (.unencodable strays)), w)
    | .error e => (.error (.ofDisk path e), w)

/-- Writes a bookmark to the file at a path. -/
def World.saveBookmark (w : World) (m : Markers) (path : Text) (b : Bookmark) :
    Except SaveError Unit × World :=
  w.writeLines path (b.toLines m)

/-- The bookmark of the place where a session stands. -/
def Session.bookmark {σ : Type} (s : Session σ) : Except SessionError Bookmark :=
  match s.source? with
  | none => .error (.fault .unsourcedStory)
  | some story =>
    match s.roomId with
    | .error e => .error e
    | .ok room => .ok ⟨story, room⟩

/-- Saves the bookmark of the place where a session stands. -/
def Session.saveBookmark {σ : Type} (s : Session σ) (m : Markers) (w : World) (path : Text) :
    Except SaveError Bookmark × World :=
  match s.bookmark with
  | .error e => (.error (.session e), w)
  | .ok b =>
    match w.saveBookmark m path b with
    | (.error e, w) => (.error e, w)
    | (.ok (), w) => (.ok b, w)

end Gamebook
