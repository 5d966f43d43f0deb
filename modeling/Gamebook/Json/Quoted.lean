import Gamebook.Json
import Gamebook.Text.Quoted
set_option autoImplicit false

/-!
# JSON strings

How a text is written between double quotes with ASCII characters alone, and how
what stands between double quotes is read.  Characters beyond the basic plane
are written as two escapes, a high and a low surrogate.
-/

namespace Gamebook.Json

/-! ## Surrogates -/

/-- The number is the first half of a surrogate pair. -/
def isHighSurrogate (n : Nat) : Bool := 0xD800 ≤ n && n ≤ 0xDBFF

/-- The number is the second half of a surrogate pair. -/
def isLowSurrogate (n : Nat) : Bool := 0xDC00 ≤ n && n ≤ 0xDFFF

/-- The text with the given code points; a high surrogate and a low one after it
are one character, and a surrogate without its other half is replaced. -/
def ofUnits : List Nat → Text
  | [] => []
  | [n] => [if isHighSurrogate n || isLowSurrogate n then '\uFFFD' else Char.ofNat n]
  | high :: low :: rest =>
    if isHighSurrogate high && isLowSurrogate low then
      Char.ofNat (0x10000 + (high - 0xD800) * 0x400 + (low - 0xDC00)) :: ofUnits rest
    else if isHighSurrogate high || isLowSurrogate high then '\uFFFD' :: ofUnits (low :: rest)
    else Char.ofNat high :: ofUnits (low :: rest)

/-! ## Writing -/

/-- The escape of a code point of the basic plane. -/
def escapeUnit (n : Nat) : Text := '\\' :: 'u' :: Text.hexadecimal 4 n

/-- A character inside double quotes. -/
def escape (c : Char) : Text :=
  match c with
  | '"' => ['\\', '"']
  | '\\' => ['\\', '\\']
  | '\n' => ['\\', 'n']
  | '\r' => ['\\', 'r']
  | '\t' => ['\\', 't']
  | '\x0C' => ['\\', 'f']
  | '\x08' => ['\\', 'b']
  | c =>
    if 0x20 ≤ c.toNat && c.toNat ≤ 0x7E then [c]
    else if c.toNat < 0x10000 then escapeUnit c.toNat
    else
      let n := c.toNat - 0x10000
      escapeUnit (0xD800 + n / 0x400) ++ escapeUnit (0xDC00 + n % 0x400)

/-- A text between double quotes. -/
def quoted (s : Text) : Text := '"' :: s.flatMap escape ++ ['"']

/-! ## Reading -/

/-- The value of a hexadecimal digit. -/
def hexDigit? (c : Char) : Option Nat :=
  if '0' ≤ c ∧ c ≤ '9' then some (c.toNat - '0'.toNat)
  else if 'a' ≤ c ∧ c ≤ 'f' then some (c.toNat - 'a'.toNat + 10)
  else if 'A' ≤ c ∧ c ≤ 'F' then some (c.toNat - 'A'.toNat + 10)
  else none

/-- The number that four hexadecimal digits stand for. -/
def hexUnit? (a b c d : Char) : Option Nat := do
  let a ← hexDigit? a
  let b ← hexDigit? b
  let c ← hexDigit? c
  let d ← hexDigit? d
  return ((a * 16 + b) * 16 + c) * 16 + d

/-- What a character stands for after a backslash. -/
def escaped? : Char → Option Char
  | '"' => some '"'
  | '\\' => some '\\'
  | '/' => some '/'
  | 'b' => some '\x08'
  | 'f' => some '\x0C'
  | 'n' => some '\n'
  | 'r' => some '\r'
  | 't' => some '\t'
  | _ => none

/-- The code points up to the closing quote, and what follows the quote.  Control
characters have to be escaped. -/
def units? : Text → Option (List Nat × Text)
  | [] => none
  | '"' :: rest => some ([], rest)
  | '\\' :: 'u' :: a :: b :: c :: d :: rest => do
    let n ← hexUnit? a b c d
    let (ns, rest) ← units? rest
    return (n :: ns, rest)
  | '\\' :: c :: rest => do
    let c ← escaped? c
    let (ns, rest) ← units? rest
    return (c.toNat :: ns, rest)
  | c :: rest =>
    if c.toNat ≤ 0x1F then none
    else do
      let (ns, rest) ← units? rest
      return (c.toNat :: ns, rest)

/-- The text up to the closing quote, and what follows the quote. -/
def unquote? (s : Text) : Option (Text × Text) :=
  (units? s).map fun (ns, rest) => (ofUnits ns, rest)

end Gamebook.Json
