import Gamebook.Settings
import Gamebook.Text.Wrap
set_option autoImplicit false

/-!
# What the screen shows

The lines that show a room and its choices to the reader.
-/

namespace Gamebook

namespace Settings

/-- A line across the screen. -/
def rulerLine (s : Settings) : Text := (List.replicate s.width.toNat s.ruler).flatten

end Settings

namespace View

/-- The lines that show a room: its title and its description between two rulers,
after its id when the reader wants to debug. -/
def lines (s : Settings) (debug : Bool) (v : View) : List Text :=
  [s.rulerLine]
    ++ (if debug then ['[' :: v.roomId ++ [']']] else [])
    ++ Text.wrap s.width v.title
    ++ [[]]
    ++ Text.wrap s.width v.description
    ++ [s.rulerLine]

end View

/-- The lines that show choices with their numbers, the first of which is given. -/
def choiceLinesFrom (number : Nat) : List Text → List Text
  | [] => []
  | label :: rest =>
    (Text.ofNat number ++ ") ".toList ++ label) :: choiceLinesFrom (number + 1) rest

/-- The lines that show choices with their numbers. -/
def choiceLines (labels : List Text) : List Text := choiceLinesFrom 0 labels

end Gamebook
