import Gamebook.Json.Reader
import Gamebook.Loading
set_option autoImplicit false

/-!
# Settings

How wide and with what ruler the console prints, and what seeds the dice.
Settings are kept as JSON in a file.  Reading them never fails: what cannot be
used is replaced by its default.
-/

namespace Gamebook

/-- The settings of the console. -/
structure Settings where
  /-- The length of a line in characters. -/
  width : Int
  /-- What a ruler is made of. -/
  ruler : Text
  /-- The seed of the dice.  Without one there are no dice, and nothing can be
  played. -/
  seed? : Option Int
  deriving DecidableEq, Repr

namespace Settings

/-- The seed of a reader who has chosen none. -/
def standardSeed : Int := 6

/-- The settings of a reader who has chosen none. -/
def standard : Settings := ⟨80, ['-'], some standardSeed⟩

instance : Inhabited Settings := ⟨standard⟩

/-- The least width that a file may set. -/
def leastWidth : Int := 20

/-! ## Names of the fields -/

/-- The member that holds the width. -/
def widthName : Text := "display_width".toList

/-- The member that holds the ruler. -/
def rulerName : Text := "line_char".toList

/-- The member that holds the seed. -/
def seedName : Text := "seed".toList

/-! ## Reading -/

/-- The width in a member: an integer that is large enough. -/
def widthOf : Option Json → Int
  | some (.integer n) => if leastWidth ≤ n then n else standard.width
  | _ => standard.width

/-- The ruler in a member: a text of one character. -/
def rulerOf : Option Json → Text
  | some (.text [c]) => [c]
  | _ => standard.ruler

/-- The seed in a member: any integer. -/
def seedOf : Option Json → Int
  | some (.integer n) => n
  | _ => standardSeed

/-- The settings in a JSON value.  They always have a seed. -/
def ofJson : Json → Settings
  | .object members =>
    ⟨widthOf (Json.member? widthName members), rulerOf (Json.member? rulerName members),
      some (seedOf (Json.member? seedName members))⟩
  | _ => standard

/-- The settings in the text of a file. -/
def ofText (s : Text) : Settings :=
  match Json.ofText? s with
  | some v => ofJson v
  | none => standard

/-- The settings in the bytes of a file. -/
def ofBytes (bytes : ByteArray) : Settings :=
  match Text.ofBytes? bytes with
  | some s => ofText s
  | none => standard

/-! ## Writing -/

/-- A member on a line of its own. -/
def memberLine (name value : Text) : Text :=
  [' ', ' '] ++ Json.quoted name ++ [':', ' '] ++ value

/-- The text of a seed: an empty list where there is none. -/
def seedText : Option Int → Text
  | some n => Text.ofInt n
  | none => ['[', ']']

/-- The text that keeps settings: an object with a member a line, in the order of
their names. -/
def toText (s : Settings) : Text :=
  ['\x7b', '\n']
    ++ memberLine widthName (Text.ofInt s.width) ++ [',', '\n']
    ++ memberLine rulerName (Json.quoted s.ruler) ++ [',', '\n']
    ++ memberLine seedName (seedText s.seed?)
    ++ ['\n', '\x7d']

end Settings

/-! ## Files -/

/-- The kinds of systems, which keep the data of their users in different places. -/
inductive Platform where
  | posix
  /-- With the directory for the data of programs, if it is set. -/
  | windows (appData? : Option Text)
  deriving DecidableEq, Repr, Inhabited

namespace World

/-- The directory for the data that the program keeps for the reader. -/
def dataDirectory (w : World) : Platform → Path
  | .posix => w.home.join (.ofText ".config/cyoa".toList)
  | .windows none | .windows (some []) => w.home.join (.ofText "cyoa".toList)
  | .windows (some appData) => (Path.ofText appData).join (.ofText "cyoa".toList)

/-- The file that keeps the settings unless the reader names another one. -/
def settingsPath (w : World) : Path := (w.dataDirectory .posix).join (.ofText "config.json".toList)

/-- The settings in the file at a path. -/
def loadSettings (w : World) (p : Path) : Settings :=
  match w.readBytes p with
  | .ok bytes => .ofBytes bytes
  | .error _ => .standard

/-- Keeps settings in the file at a path.  The directory of the file is made if it
is missing, and stays even if the file cannot be written.  The text is ASCII, so
that it can always be encoded. -/
def saveSettings (w : World) (p : Path) (s : Settings) : Except Fault Unit × World :=
  match w.ensureDirectory p.parent with
  | (.error e, w) => (.error e, w)
  | (.ok (), w) =>
    match w.writeBytes p (Text.toBytes s.toText) with
    | .ok w => (.ok (), w)
    | .error e => (.error (.disk e p.toText), w)

/-- The reader wants to debug. -/
def isDebugging (w : World) : Bool := w.debug? = some ['1']

end World

end Gamebook
