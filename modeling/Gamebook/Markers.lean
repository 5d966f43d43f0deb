import Gamebook.Text
set_option autoImplicit false

/-!
# Markers

The literal texts by which stories and bookmarks are recognised in a file.
-/

namespace Gamebook

/-- The marks of the story format and of the bookmark format. -/
structure Markers where
  /-- The first line of a story file. -/
  storyMagic : Text
  /-- The first line of a bookmark file. -/
  bookmarkMagic : Text
  /-- Starts a line that is skipped. -/
  comment : Text
  /-- Starts the header of a room. -/
  room : Text
  /-- Stands between the id and the title of a room. -/
  title : Text
  /-- The line after a description. -/
  descriptionEnd : Text
  /-- Starts a choice. -/
  choice : Text
  /-- Stands between the text and the target of a choice. -/
  target : Text
  /-- Stands between the target and the weight of a choice. -/
  weight : Text
  /-- The line that ends the story well. -/
  success : Text
  /-- The line that ends the story badly. -/
  failure : Text
  deriving DecidableEq, Repr, Inhabited

/-- The marks that stories are written with. -/
def Markers.standard : Markers where
  storyMagic := "#!STORY".toList
  bookmarkMagic := "#!BOOKMARK".toList
  comment := "#".toList
  room := "R".toList
  title := ":".toList
  descriptionEnd := ";;;".toList
  choice := ":".toList
  target := " -> ".toList
  weight := "?".toList
  success := "=)".toList
  failure := "=(".toList

end Gamebook
