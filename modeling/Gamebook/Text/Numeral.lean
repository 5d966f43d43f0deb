import Gamebook.Text.Digits
set_option autoImplicit false

/-!
# Numerals

Two grammars of integers.  A *plain* numeral is an optional sign and digits, and
nothing else; the weights of choices are written so.  A *typed* numeral is what a
reader may type: padded with blanks, with single underscores between digits.
Neither may have more than 4300 digits, and no longer number is written out.
-/

namespace Gamebook

/-- A numeral has more digits than are converted. -/
structure Overlong where
  digits : Nat
  deriving DecidableEq, Repr, Inhabited

/-- The longest numeral that is converted has this many digits, leading zeros
counted. -/
def Overlong.limit : Nat := 4300

/-- Writing out the number takes more digits than that. -/
def isUnwritten (n : Int) : Bool := Nat.pow 10 Overlong.limit ≤ n.natAbs

namespace Text

/-- Whether the text starts with a minus, and what follows the optional sign. -/
def takeSign : Text → Bool × Text
  | '-' :: rest => (true, rest)
  | '+' :: rest => (false, rest)
  | rest => (false, rest)

/-- The values of the characters of a text of digits only, at least one. -/
def digits? : Text → Option (List Nat)
  | [] => none
  | s => s.mapM digitValue?

/-- The values of the digits of a text in which single underscores may stand
between digits. -/
def groupedDigits? : Text → Option (List Nat)
  | [] => none
  | [c] => (digitValue? c).map ([·])
  | c :: '_' :: rest => do return (← digitValue? c) :: (← groupedDigits? rest)
  | c :: rest => do return (← digitValue? c) :: (← groupedDigits? rest)

/-- The number that digits stand for, unless there are too many of them. -/
def convert (digits : List Nat) : Except Overlong Nat :=
  if digits.length ≤ Overlong.limit then .ok (ofDigits digits) else .error ⟨digits.length⟩

/-- The sign, true for a minus, and the digits of a plain numeral. -/
def plainNumeral? (s : Text) : Option (Bool × List Nat) :=
  let (negative, rest) := takeSign s
  (digits? rest).map (negative, ·)

/-- The characters that may pad a typed numeral: the blanks that are not
information separators. -/
def isPadding (c : Char) : Bool := isBlank c && !(0x1C ≤ c.toNat && c.toNat ≤ 0x1F)

/-- The integer that a typed numeral stands for. -/
def typedInteger? (s : Text) : Option Int :=
  let unpadded := ((s.dropWhile isPadding).reverse.dropWhile isPadding).reverse
  let (negative, rest) := takeSign unpadded
  match groupedDigits? rest with
  | none => none
  | some digits =>
    match convert digits with
    | .error _ => none
    | .ok n => some (if negative then -(n : Int) else n)

end Text

end Gamebook
