set_option autoImplicit false

/-!
# Text: blanks, cuts and lines

A text is the list of its characters, so that every function on it recurses on
that list.  This module fixes which characters count as blank, how a text is
trimmed, how it is cut at the first or the last occurrence of a separator, and
where a text breaks into lines.
-/

namespace Gamebook

/-- A text, as the list of its characters. -/
abbrev Text := List Char

namespace Text

/-! ## Blanks -/

/-- The characters that trimming removes: the white space of Unicode and the
four information separators. -/
def isBlank (c : Char) : Bool :=
  let n := c.toNat
  (0x09 ≤ n && n ≤ 0x0D) || (0x1C ≤ n && n ≤ 0x20) || n == 0x85 || n == 0xA0
    || n == 0x1680 || (0x2000 ≤ n && n ≤ 0x200A) || n == 0x2028 || n == 0x2029
    || n == 0x202F || n == 0x205F || n == 0x3000

/-- The text without the blanks before its first other character. -/
def trimStart (s : Text) : Text := s.dropWhile isBlank

/-- The text without the blanks after its last other character. -/
def trimEnd (s : Text) : Text := (s.reverse.dropWhile isBlank).reverse

/-- The text without the blanks at either end. -/
def trim (s : Text) : Text := trimEnd (trimStart s)

/-- A text of blanks only, the empty one included. -/
def isAllBlank (s : Text) : Bool := s.all isBlank

/-! ## Cuts at a separator -/

/-- What follows a start, when the text has that start. -/
def after? : Text → Text → Option Text
  | [], s => some s
  | _ :: _, [] => none
  | c :: start, d :: s => if c = d then after? start s else none

/-- What stands before and after the first occurrence of a separator, which
must not be empty. -/
def cutFirst? (separator : Text) : Text → Option (Text × Text)
  | [] => none
  | c :: rest =>
    match after? separator (c :: rest) with
    | some tail => some ([], tail)
    | none => (cutFirst? separator rest).map fun (before, tail) => (c :: before, tail)

/-- What stands before and after the last occurrence of a separator, which must
not be empty. -/
def cutLast? (separator : Text) : Text → Option (Text × Text)
  | [] => none
  | c :: rest =>
    match cutLast? separator rest with
    | some (before, tail) => some (c :: before, tail)
    | none => (after? separator (c :: rest)).map fun tail => ([], tail)

/-! ## Lines -/

/-- The characters that end a line. -/
def isLineBreak (c : Char) : Bool :=
  let n := c.toNat
  (0x0A ≤ n && n ≤ 0x0D) || (0x1C ≤ n && n ≤ 0x1E) || n == 0x85 || n == 0x2028 || n == 0x2029

/-- The lines of a text without their breaks.  A carriage return and a line feed
after it are one break, and nothing follows a break at the very end. -/
def lines : Text → List Text
  | [] => []
  | '\r' :: '\n' :: rest => [] :: lines rest
  | c :: rest =>
    if isLineBreak c then [] :: lines rest
    else
      match lines rest with
      | [] => [[c]]
      | line :: more => (c :: line) :: more

/-- The text that holds each line followed by a line feed. -/
def unlines (ls : List Text) : Text := ls.flatMap (· ++ ['\n'])

/-- The lines joined by line feeds. -/
def joinLines (ls : List Text) : Text := ['\n'].intercalate ls

/-- The parts between the line feeds of a text: one more than it has line feeds. -/
def paragraphs : Text → List Text
  | [] => [[]]
  | c :: rest =>
    if c = '\n' then [] :: paragraphs rest
    else
      match paragraphs rest with
      | [] => [[c]]
      | part :: more => (c :: part) :: more

/-- The text without the carriage returns and line feeds at its end. -/
def chomp (s : Text) : Text :=
  (s.reverse.dropWhile fun c => c == '\r' || c == '\n').reverse

end Text

end Gamebook
