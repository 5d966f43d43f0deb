import Gamebook.Bookmark
import Gamebook.Story.Reader
set_option autoImplicit false

/-!
# Loading a story

A path leads to a story file, or to a bookmark file that names another path.
Loading follows the chain of bookmarks to its story.  The room to start in is the
one of the first bookmark; an error remembers the room of the last one.  The chain
ends because no file is visited twice.
-/

namespace Gamebook

/-- The marks by which files are told apart, and the marks by which stories are
read. -/
structure Format where
  files : Markers
  stories : Markers
  deriving DecidableEq, Repr, Inhabited

/-- The format in which stories and bookmarks are kept. -/
def Format.standard : Format := ⟨.standard, .standard⟩

/-- Why a path leads to no story. -/
inductive LoadCause where
  /-- There is no file at the path, or it holds no text. -/
  | unreadable (path : Text)
  /-- The file at the path is empty. -/
  | noFirstLine (path : Text)
  /-- The file at the path is neither a story nor a bookmark. -/
  | unknownMagic (path value : Text)
  /-- The bookmark at the path lacks a part. -/
  | incomplete (path : Text) (missing : BookmarkPart)
  /-- The bookmark before the path leads back to a file of the chain. -/
  | cycle (path : Text)
  /-- The file at the end of the chain holds no story. -/
  | story (error : StoryError)
  /-- Loading meets a fault. -/
  | fault (fault : Fault)
  deriving DecidableEq, Repr, Inhabited

/-- Why nothing is loaded, and the room of the last bookmark on the way. -/
structure LoadError where
  cause : LoadCause
  bookmarkRoom? : Option Text
  deriving DecidableEq, Repr, Inhabited

/-- What is said about a path that leads to no story. -/
def LoadCause.message : LoadCause → Text
  | .unreadable path => "Error reading file: ".toList ++ path
  | .noFirstLine path => "Unable to read first line from file: ".toList ++ path
  | .unknownMagic _ value =>
    "First line: ".toList ++ value ++ " does not correspond to known value.".toList
  | .incomplete path missing =>
    "Bookmark file ".toList ++ path ++ " is missing its ".toList ++ missing.name
      ++ " line.".toList
  | .cycle path => "Bookmark chain loops back to file: ".toList ++ path
  | .story e => e.message
  | .fault f => f.message

/-- The cause in which a text is no story.  A separator that is empty is a fault of
the format and not of the text. -/
def StoryError.cause : StoryError → LoadCause
  | .emptySeparator => .fault .emptySeparator
  | e => .story e

/-- The error as seen through a bookmark: the room of a bookmark further on stays,
and faults have none. -/
def LoadError.through (e : LoadError) (room : Text) : LoadError :=
  match e.cause, e.bookmarkRoom? with
  | .fault _, _ => e
  | _, some _ => e
  | _, none => { e with bookmarkRoom? := some room }

/-- A story with the path of its file and the room to start in. -/
structure Loaded where
  path : Text
  story : Story
  room : Text
  deriving DecidableEq, Repr

/-! ## Single files -/

/-- What a file holds. -/
inductive FileContent where
  | story (story : Story)
  | bookmark (bookmark : Bookmark)
  deriving DecidableEq, Repr

namespace World

/-- The lines of the text file at a path. -/
def readLines (w : World) (path : Text) : Except LoadCause (List Text) :=
  match w.readBytes (.ofText path) with
  | .error .embeddedNull => .error (.fault (.disk .embeddedNull path))
  | .error _ => .error (.unreadable path)
  | .ok bytes =>
    match Text.ofBytes? bytes with
    | none => .error (.unreadable path)
    | some s => .ok (Text.lines s)

/-- What the lines of the file at a path hold, by the first of them. -/
def contentOfLines (f : Format) (path : Text) : List Text → Except LoadCause FileContent
  | [] => .error (.noFirstLine path)
  | first :: rest =>
    if Text.trim first = f.files.storyMagic then
      match Story.read f.stories rest with
      | .error e => .error e.cause
      | .ok story => .ok (.story story)
    else if Text.trim first = f.files.bookmarkMagic then
      match Bookmark.ofLines rest with
      | .error missing => .error (.incomplete path missing)
      | .ok bookmark => .ok (.bookmark bookmark)
    else .error (.unknownMagic path (Text.trim first))

/-- What the file at a path holds. -/
def content (w : World) (f : Format) (path : Text) : Except LoadCause FileContent :=
  match w.readLines path with
  | .error e => .error e
  | .ok lines => contentOfLines f path lines

/-! ## Chains of bookmarks -/

/-- The entries of the disk that are not at the given locations. -/
def unvisited (w : World) (visited : List Location) : List (Location × Node) :=
  w.disk.entries.filter fun e => e.1 ∉ visited

/-- A path with a file leads to an entry of the disk. -/
theorem exists_entry_of_readBytes {w : World} {p : Path} {l : Location} {bytes : ByteArray}
    (hl : w.resolve p = .ok l) (h : w.readBytes p = .ok bytes) :
    ∃ e ∈ w.disk.entries, e.1 = l := by
  have hnode : w.node p = .ok (.file bytes) := by
    unfold readBytes at h
    split at h <;> simp_all
  unfold node at hnode
  split at hnode
  · simp at hnode
  · rename_i l' hl'
    have hll' : l' = l := by
      unfold resolve at hl
      unfold locate at hl'
      split at hl
      · simp at hl
      · split at hl'
        · simp at hl'
        · split at hl'
          · simp at hl'
          · rw [Disk.eq_follow_of_walk hl']
            simpa using hl
    subst hll'
    unfold Disk.node? at hnode
    split at hnode
    · rename_i node hnode'
      split at hnode'
      · rename_i e hfind
        exact ⟨_, List.mem_of_find?_eq_some hfind, by simpa using List.find?_some hfind⟩
      · split at hnode' <;> simp_all
    · simp at hnode

/-- Visiting a file of the disk for the first time leaves fewer to visit. -/
theorem length_unvisited_cons_lt {w : World} {visited : List Location} {l : Location}
    (hl : ∃ e ∈ w.disk.entries, e.1 = l) (hnew : l ∉ visited) :
    (w.unvisited (l :: visited)).length < (w.unvisited visited).length := by
  obtain ⟨e, he, rfl⟩ := hl
  have hsub : w.unvisited (e.1 :: visited) = (w.unvisited visited).filter fun q => q.1 ≠ e.1 := by
    simp only [unvisited, List.filter_filter]
    congr 1
    funext q
    by_cases hq : q.1 = e.1 <;> simp [hq]
  rw [hsub]
  apply List.length_filter_lt_length_iff_exists.mpr
  exact ⟨e, by simp [unvisited, he, hnew], by simp⟩

theorem exists_readBytes_of_content {w : World} {f : Format} {path : Text} {c : FileContent}
    (h : w.content f path = .ok c) : ∃ bytes, w.readBytes (.ofText path) = .ok bytes := by
  unfold content at h
  split at h
  · simp at h
  · rename_i lines hlines
    unfold readLines at hlines
    split at hlines
    · simp at hlines
    · simp at hlines
    · exact ⟨_, ‹_›⟩

/-- The story that a path leads to, when the files at some locations have been
visited on the way. -/
def loadFrom (w : World) (f : Format) (visited : List Location) (path : Text) :
    Except LoadError Loaded :=
  match _hl : w.resolve (.ofText path) with
  | .error e => .error ⟨.fault (.disk e path), none⟩
  | .ok l =>
    if _hnew : l ∈ visited then .error ⟨.cycle path, none⟩
    else
      match _hc : w.content f path with
      | .error cause => .error ⟨cause, none⟩
      | .ok (.story story) => .ok ⟨path, story, story.opening.id⟩
      | .ok (.bookmark b) =>
        match loadFrom w f (l :: visited) b.story with
        | .error e => .error (e.through b.room)
        | .ok loaded => .ok { loaded with room := b.room }
termination_by (w.unvisited visited).length
decreasing_by
  obtain ⟨bytes, hbytes⟩ := exists_readBytes_of_content _hc
  exact length_unvisited_cons_lt (exists_entry_of_readBytes _hl hbytes) _hnew

/-- The story that a path leads to. -/
def load (w : World) (f : Format) (path : Text) : Except LoadError Loaded := w.loadFrom f [] path

end World

end Gamebook
