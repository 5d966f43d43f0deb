import Gamebook.Proofs.Text.Lines
set_option autoImplicit false

/-!
# Line endings

Text files end their lines with a line feed, a carriage return or both.  A text with one of
these in place of every line feed has the same lines, and the lines that a file is made of are
read back from it whichever of them stands after each line.  After the last line it may be
missing, unless that line is empty.
-/

namespace Gamebook.Text

/-! ## Lines that are read -/

end Gamebook.Text

namespace Gamebook

open Text

/-- How the lines of a text file end. -/
inductive LineEnding where
  | lineFeed
  | carriageReturn
  /-- A carriage return and a line feed after it. -/
  | both
  deriving DecidableEq, Repr

namespace LineEnding

variable {e : LineEnding} {s : Text} {ls : List Text}

/-- What stands after a line. -/
def toText : LineEnding → Text
  | lineFeed => ['\n']
  | carriageReturn => ['\r']
  | both => ['\r', '\n']

/-- The text with the ending in place of every line feed. -/
def restyle (e : LineEnding) (s : Text) : Text :=
  s.flatMap fun c => if c = '\n' then e.toText else [c]

/-- The text holds the lines and after each of them the ending, or no ending after the last line
if that is not empty. -/
inductive Keeps (e : LineEnding) (ls : List Text) : Text → Prop where
  | ended : Keeps e ls (ls.flatMap (· ++ e.toText))
  | unended (last : ∀ last ∈ ls.getLast?, last ≠ []) : Keeps e ls (e.toText.intercalate ls)

/-! ## Texts in another style -/

end LineEnding

/-! ## Texts that differ in their line endings -/

/-- Two texts that have the same lines, however these end. -/
inductive Text.SameLines : Text → Text → Prop where
  /-- one text in two styles -/
  | restyled {s : Text} (plain : '\r' ∉ s) (e other : LineEnding) :
      SameLines (e.restyle s) (other.restyle s)
  /-- the same lines in two styles, with an ending after the last one or without it -/
  | kept {s t : Text} {ls : List Text} {e other : LineEnding} (lines : ∀ line ∈ ls, IsLine line)
      (here : e.Keeps ls s) (there : other.Keeps ls t) : SameLines s t

end Gamebook
