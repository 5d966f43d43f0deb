import Gamebook.Text.Numeral
import Gamebook.Text.Quoted
set_option autoImplicit false

/-!
# Faults

The conditions that end an operation although they are no news about the story:
nothing in the library handles them on the reader's behalf, but for the end of
the input, after which a console says goodbye.
-/

namespace Gamebook

/-- Why the disk refuses a path. -/
inductive DiskError where
  /-- Nothing is at the path. -/
  | notFound
  /-- Something is at the path where nothing may be. -/
  | exists
  /-- The path leads through a file. -/
  | notDirectory
  /-- A directory is at the path where a file is needed. -/
  | isDirectory
  /-- A name of the path, or the path itself, is too long. -/
  | nameTooLong
  /-- The path holds the null character, which no disk is asked for. -/
  | embeddedNull
  deriving DecidableEq, Repr, Inhabited

/-- Characters next to each other in a text that stand for stray bytes, so that the text
cannot be encoded. -/
structure Unencodable where
  /-- How many characters stand before them. -/
  start : Nat
  /-- The byte that the first of them stands for. -/
  byte : Nat
  count : Nat
  deriving DecidableEq, Repr, Inhabited

/-- A condition that ends an operation. -/
inductive Fault where
  /-- A story needs rooms. -/
  | noRooms
  /-- A number is to be drawn below this bound, which is less than one. -/
  | emptyRange
  /-- A marker that has to separate two parts is empty. -/
  | emptySeparator
  /-- A numeral is too long to be converted. -/
  | overlong (numeral : Overlong)
  /-- A number has too many digits to be written out. -/
  | unwritten
  /-- A bookmark is asked for, but the story has no file. -/
  | unsourcedStory
  /-- A path names the home of somebody who has none. -/
  | unknownHome
  /-- The disk refuses a path. -/
  | disk (error : DiskError) (path : Text)
  /-- A text that is to be written cannot be encoded. -/
  | unencodable (strays : Unencodable)
  /-- Dice are to be made without a seed. -/
  | noSeed
  /-- A line is asked for after the last one. -/
  | endOfInput
  deriving DecidableEq, Repr, Inhabited

/-- The number and the words of an error of the operating system; a path with a
null character never gets there. -/
def DiskError.system? : DiskError → Option (Nat × String)
  | .notFound => some (2, "No such file or directory")
  | .exists => some (17, "File exists")
  | .notDirectory => some (20, "Not a directory")
  | .isDirectory => some (21, "Is a directory")
  | .nameTooLong => some (36, "File name too long")
  | .embeddedNull => none

/-- What is said about a path that the disk refuses. -/
def DiskError.message (e : DiskError) (path : Text) : Text :=
  match e.system? with
  | some (number, words) =>
    "[Errno ".toList ++ Text.ofNat number ++ "] ".toList ++ words.toList ++ ": ".toList
      ++ Text.quoted path
  | none => "embedded null byte".toList

/-- What is said about a text that cannot be encoded. -/
def Unencodable.message (u : Unencodable) : Text :=
  let place :=
    if u.count = 1 then
      " '\\udc".toList ++ Text.hexadecimal 2 u.byte ++ "' in position ".toList ++ Text.ofNat u.start
    else
      "s in position ".toList ++ Text.ofNat u.start ++ "-".toList
        ++ Text.ofNat (u.start + u.count - 1)
  "'utf-8' codec can't encode character".toList ++ place ++ ": surrogates not allowed".toList

/-- What is said about a fault. -/
def Fault.message : Fault → Text
  | .noRooms => "A story graph needs at least one room.".toList
  | .emptyRange => "Upper bound must be at least 1.".toList
  | .emptySeparator => "empty separator".toList
  | .overlong numeral =>
    "Exceeds the limit (".toList ++ Text.ofNat Overlong.limit
      ++ " digits) for integer string conversion: value has ".toList
      ++ Text.ofNat numeral.digits
      ++ " digits; use sys.set_int_max_str_digits() to increase the limit".toList
  | .unwritten =>
    "Exceeds the limit (".toList ++ Text.ofNat Overlong.limit
      ++ " digits) for integer string conversion; ".toList
      ++ "use sys.set_int_max_str_digits() to increase the limit".toList
  | .unsourcedStory => "Cannot bookmark a story that was not loaded from a file.".toList
  | .unknownHome => "Could not determine home directory.".toList
  | .disk error path => error.message path
  | .unencodable strays => strays.message
  | .noSeed =>
    "The only supported seed types are: None,\nint, float, str, bytes, and bytearray.".toList
  | .endOfInput => "EOF when reading a line".toList

end Gamebook
