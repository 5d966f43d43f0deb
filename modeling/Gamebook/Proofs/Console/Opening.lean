import Gamebook.Console.Play
import Gamebook.Proofs.Bookmark.Resume
import Gamebook.Proofs.Story.Separators
set_option autoImplicit false

/-!
# Faults at the console

A story that cannot be opened and a bookmark that cannot be saved are news for the
reader, and the play goes on from there.  Some names are not dealt with in this way: they
end the program with a fault.  Here it is said which ones.
-/

namespace Gamebook

open Text

namespace World

variable {w : World} {name : Text} {fault : Fault}

/-! ## Names that are looked up -/

theorem openStory_of_load {path : Text} {loaded : Loaded}
    (hpath : w.storyPath w.library name = .ok path) (h : w.load .standard path = .ok loaded) :
    w.openStory .standard name = .opened loaded := by
  have hformat : Format.mk .standard .standard = .standard := rfl
  simp only [openStory, hpath, hformat, h]

/-- A story that is opened is loaded. -/
theorem exists_load_of_openStory {loaded : Loaded}
    (h : w.openStory .standard name = .opened loaded) :
    ∃ path, w.load .standard path = .ok loaded := by
  unfold openStory at h
  split at h
  · cases h
  · rename_i path hpath
    split at h
    · rename_i found hload
      obtain rfl := Opening.opened.inj h
      exact ⟨path, hload⟩
    · cases h
    · cases h

end World

/-! ## Bookmarks that are saved -/

namespace Play

variable {σ : Type} {p : Play σ}

/-- What can come of saving a bookmark in a file: what is said, and the play after it. -/
inductive Marks (p : Play σ) (b : Bookmark) (path : Text) : List Text × Play σ → Prop where
  /-- no disk is asked for the path -/
  | null (null : '\x00' ∈ path) :
      Marks p b path ([], p.turnTo (.over (.error (.fault (.disk .embeddedNull path)))))
  /-- the disk does not take the file -/
  | refused (clean : '\x00' ∉ path) (refused : ¬ p.world.Takes path) :
      Marks p b path (["Error saving bookmark in ".toList ++ path], p.turnTo (.over (.ok none)))
  /-- the file is emptied, and then the bookmark cannot be encoded -/
  | emptied {found : Unencodable} {after : World}
      (strays : ¬ ∀ line ∈ b.toLines p.markers, p.world.disk.Encodes line)
      (emptied : p.world.writeBytes (.ofText path) .empty = .ok after) :
      Marks p b path
        ([], { p with world := after, phase := .over (.error (.fault (.unencodable found))) })
  /-- the bookmark is in the file -/
  | saved {after : World} (encodes : ∀ line ∈ b.toLines p.markers, p.world.disk.Encodes line)
      (saved : p.world.saveBookmark p.markers path b = (.ok (), after)) :
      Marks p b path
        (["Bookmark saved in ".toList ++ path], { p with world := after, phase := .over (.ok none) })

/-- Nothing else comes of saving the bookmark of the room in which a play stands. -/
theorem marks_mark {source room : Text} (hsource : p.session.source? = some source)
    (hposition : p.session.position = .active room) (path : Text) :
    p.Marks ⟨source, room⟩ path (p.mark path) := by
  have hbookmark := Session.bookmark_of_active hsource hposition
  have hwrites := p.world.writes_writeLines path (Bookmark.toLines p.markers ⟨source, room⟩)
  rw [mark, Session.saveBookmark_of_bookmark hbookmark, World.saveBookmark]
  generalize hwrite : p.world.writeLines path (Bookmark.toLines p.markers ⟨source, room⟩) =
    outcome at hwrites
  cases hwrites with
  | null null => exact .null null
  | refused clean refused => exact .refused clean refused
  | emptied strays emptied =>
    refine .emptied (fun hencodes => ?_) emptied
    cases strays.symm.trans (Disk.unencodable?_unlines_eq_none_iff.mpr hencodes)
  | written encodes written => exact .saved (Disk.encodes_unlines_iff.mp encodes) hwrite

end Play

/-! ## What is not dealt with -/

namespace Cellar

end Cellar

end Gamebook
