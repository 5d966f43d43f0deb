import Gamebook.Json.Quoted
set_option autoImplicit false

/-!
# Reading JSON

Every reader takes a text and gives what stands at its start together with the
rest.  Nesting is bounded by a depth that no text of the given length exceeds.
-/

namespace Gamebook.Json

/-- What follows the white space at the start. -/
def skipSpace (s : Text) : Text :=
  s.dropWhile fun c => c == ' ' || c == '\t' || c == '\n' || c == '\r'

/-! ## Numbers -/

/-- The digits at the start and what follows them. -/
def spanDigits (s : Text) : Text × Text := (s.takeWhile Char.isDigit, s.dropWhile Char.isDigit)

/-- The digits of the integral part: a zero alone, or digits that start with
another one. -/
def integral? : Text → Option (Text × Text)
  | '0' :: rest => some (['0'], rest)
  | s =>
    match spanDigits s with
    | ([], _) => none
    | found => some found

/-- What follows a fraction, if there is one. -/
def afterFraction? : Text → Option Text
  | '.' :: s =>
    match spanDigits s with
    | ([], _) => none
    | (_, rest) => some rest
  | _ => none

/-- What follows an exponent, if there is one. -/
def afterExponent? : Text → Option Text
  | c :: s =>
    if c = 'e' ∨ c = 'E' then
      match spanDigits (match s with | '+' :: t | '-' :: t => t | t => t) with
      | ([], _) => none
      | (_, rest) => some rest
    else none
  | [] => none

/-- A number at the start.  An integer with too many digits is none. -/
def number? (s : Text) : Option (Json × Text) :=
  let (negative, s) := match s with | '-' :: t => (true, t) | t => (false, t)
  match integral? s with
  | none => none
  | some (digits, rest) =>
    match afterFraction? rest with
    | some rest => some (.real, (afterExponent? rest).getD rest)
    | none =>
      match afterExponent? rest with
      | some rest => some (.real, rest)
      | none =>
        match Text.convert (digits.filterMap Text.digitValue?) with
        | .error _ => none
        | .ok n => some (.integer (if negative then -(n : Int) else n), rest)

/-! ## Values -/

/-- The words that are values. -/
def words : List (Text × Json) :=
  [("null".toList, .null), ("true".toList, .boolean true), ("false".toList, .boolean false),
   ("NaN".toList, .real), ("Infinity".toList, .real), ("-Infinity".toList, .real)]

/-- A word or a number at the start. -/
def scalar? (s : Text) : Option (Json × Text) :=
  match words.findSome? fun (word, value) => (Text.after? word s).map (value, ·) with
  | some found => some found
  | none => number? s

mutual

/-- A value at the start. -/
def value? : Nat → Text → Option (Json × Text)
  | 0, _ => none
  | depth + 1, s =>
    match s with
    | '"' :: rest => (unquote? rest).map fun (t, rest) => (.text t, rest)
    | '[' :: rest =>
      match skipSpace rest with
      | ']' :: rest => some (.array [], rest)
      | rest => (items? depth rest).map fun (vs, rest) => (.array vs, rest)
    | '\x7b' :: rest =>
      match skipSpace rest with
      | '\x7d' :: rest => some (.object [], rest)
      | rest => (members? depth rest).map fun (ms, rest) => (.object ms, rest)
    | s => scalar? s

/-- The items of an array, at least one, with the closing bracket. -/
def items? : Nat → Text → Option (List Json × Text)
  | 0, _ => none
  | depth + 1, s =>
    match value? depth s with
    | none => none
    | some (v, rest) =>
      match skipSpace rest with
      | ']' :: rest => some ([v], rest)
      | ',' :: rest => (items? depth (skipSpace rest)).map fun (vs, rest) => (v :: vs, rest)
      | _ => none

/-- The members of an object, at least one, with the closing brace. -/
def members? : Nat → Text → Option (List (Text × Json) × Text)
  | 0, _ => none
  | depth + 1, s =>
    match s with
    | '"' :: rest =>
      match unquote? rest with
      | none => none
      | some (name, rest) =>
        match skipSpace rest with
        | ':' :: rest =>
          match value? depth (skipSpace rest) with
          | none => none
          | some (v, rest) =>
            match skipSpace rest with
            | '\x7d' :: rest => some ([(name, v)], rest)
            | ',' :: rest =>
              (members? depth (skipSpace rest)).map fun (ms, rest) => ((name, v) :: ms, rest)
            | _ => none
        | _ => none
    | _ => none

end

/-- The value that a whole text writes, white space around it aside. -/
def ofText? (s : Text) : Option Json :=
  match value? (2 * s.length + 2) (skipSpace s) with
  | none => none
  | some (v, rest) => if skipSpace rest = [] then some v else none

end Gamebook.Json
