import Gamebook.Text.Unprintable
set_option autoImplicit false

/-!
# Quoted text

Messages that show a text exactly put it between quotes and escape what could
not be read back.
-/

namespace Gamebook.Text

/-- The lower-case hexadecimal form of a number, padded with zeros to a width. -/
def hexadecimal (width n : Nat) : Text :=
  let digits := Nat.toDigits 16 n
  List.replicate (width - digits.length) '0' ++ digits

/-- A character inside quotes: the quote and the backslash are escaped, so are
tab, line feed and carriage return by letter and other unprintable characters by
code point. -/
def escape (quote c : Char) : Text :=
  if c = quote ∨ c = '\\' then ['\\', c]
  else if c = '\t' then ['\\', 't']
  else if c = '\n' then ['\\', 'n']
  else if c = '\r' then ['\\', 'r']
  else if isPrintable c then [c]
  else if c.toNat ≤ 0xFF then '\\' :: 'x' :: hexadecimal 2 c.toNat
  else if c.toNat ≤ 0xFFFF then '\\' :: 'u' :: hexadecimal 4 c.toNat
  else '\\' :: 'U' :: hexadecimal 8 c.toNat

/-- The text between single quotes, or between double quotes when it holds a
single quote and no double one. -/
def quoted (s : Text) : Text :=
  let quote := if s.contains '\'' && !s.contains '"' then '"' else '\''
  quote :: s.flatMap (escape quote) ++ [quote]

end Gamebook.Text
