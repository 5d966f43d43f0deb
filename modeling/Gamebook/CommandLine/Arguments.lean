import Gamebook.Path
import Gamebook.Text.Numeral
import Gamebook.Text.Quoted
set_option autoImplicit false

/-!
# Arguments of the command line

The command line names a story and sets options.  An option may be shortened as
long as no other option starts the same; its value follows it, or is joined to it
by an equals sign.  After a double dash nothing is an option.

Every argument is first told to be an option or not, without regard to the
others; then the arguments are taken one after the other.
-/

namespace Gamebook

/-- What stands for the value of an option. -/
inductive Entry (α : Type) where
  | value (a : α)
  /-- A double dash: the option is there, but its value is left blank. -/
  | blank
  deriving DecidableEq, Repr, Inhabited

/-- What the command line says. -/
structure Arguments where
  /-- The story to play. -/
  story? : Option Text
  /-- The seed of the dice. -/
  seed? : Option (Entry Int)
  /-- The file of the settings. -/
  settings? : Option (Entry Path)
  /-- The story is only to be audited. -/
  validate : Bool
  /-- The settings are to be kept. -/
  saveSettings : Bool
  deriving DecidableEq, Repr, Inhabited

/-- A command line that says nothing. -/
def Arguments.empty : Arguments := ⟨none, none, none, false, false⟩

/-- How the reading of a command line ends when there is nothing to run. -/
inductive EarlyExit where
  /-- Help is asked for. -/
  | help
  /-- The command line is wrong. -/
  | misuse (message : Text)
  deriving DecidableEq, Repr, Inhabited

/-- The options. -/
inductive Switch where
  | help
  | seed
  | settings
  | validate
  | saveSettings
  deriving DecidableEq, Repr, Inhabited

namespace Switch

/-- All the names of options, in the order in which they are listed. -/
def names : List (Text × Switch) :=
  [("-h".toList, .help), ("--help".toList, .help), ("--seed".toList, .seed),
   ("--config".toList, .settings), ("--validate".toList, .validate),
   ("--save-config".toList, .saveSettings)]

/-- The option with a name. -/
def named? (name : Text) : Option Switch := names.lookup name

/-- A name is a dash and a letter. -/
def isLetter (name : Text) : Bool := name.length = 2

/-- All the names of an option. -/
def title (s : Switch) : Text :=
  ['/'].intercalate ((names.filter (·.2 = s)).map (·.1))

/-- The option has a value. -/
def takesValue : Switch → Bool
  | .seed | .settings => true
  | _ => false

/-- A complaint about an option. -/
def complaint (s : Switch) (message : Text) : EarlyExit :=
  .misuse ("argument ".toList ++ s.title ++ ": ".toList ++ message)

/-- The complaint about a value that an option does not take. -/
def ignoredValue (s : Switch) (value : Text) : EarlyExit :=
  s.complaint ("ignored explicit argument ".toList ++ Text.quoted value)

end Switch

/-! ## Single arguments -/

/-- What an argument is by itself. -/
inductive Word where
  /-- It may be the story or the value of an option. -/
  | plain
  /-- It ends the options. -/
  | separator
  /-- It is an option, perhaps with a value after an equals sign. -/
  | option (switch : Switch) (value? : Option Text)
  /-- It is an option of one letter with a text joined to it, right after the letter
  or after an equals sign. -/
  | letters (switch : Switch) (rest : Text)
  /-- It looks like an option, but there is none of that name. -/
  | unknown
  deriving DecidableEq, Repr, Inhabited

namespace Word

/-- A negative number in digits, with a decimal point or without; a line feed may
follow. -/
def isNegativeNumber (s : Text) : Bool :=
  let digits (t : Text) : Bool := t.all fun c => (Text.digitValue? c).isSome
  match s with
  | '-' :: rest =>
    let rest := if rest.getLast? = some '\n' then rest.dropLast else rest
    match Text.cutFirst? ['.'] rest with
    | none => rest ≠ [] && digits rest
    | some (whole, fraction) => digits whole && fraction ≠ [] && digits fraction
  | _ => false

/-- The name and the value in an argument, at its first equals sign. -/
def splitValue (s : Text) : Text × Option Text :=
  match Text.cutFirst? ['='] s with
  | some (name, value) => (name, some value)
  | none => (s, none)

/-- An option with a value after an equals sign. -/
def ofValue (name : Text) (switch : Switch) (value : Text) : Word :=
  if Switch.isLetter name then .letters switch value else .option switch (some value)

/-- The options that a text which is no name may stand for, each with its name:
those with a name that starts so, and for a single dash also the option of its
first letter. -/
def candidates (s : Text) : List (Text × Word) :=
  match s with
  | '-' :: '-' :: _ =>
    let (start, value?) := splitValue s
    (Switch.names.filter fun (name, _) => (Text.after? start name).isSome).map
      fun (name, switch) => (name, .option switch value?)
  | _ =>
    Switch.names.filterMap fun (name, switch) =>
      if name = s.take 2 then some (name, .letters switch (s.drop 2))
      else if (Text.after? s name).isSome then some (name, .option switch none)
      else none

/-- What an argument before the double dash is. -/
def ofText (s : Text) : Except EarlyExit Word :=
  match s with
  | '-' :: _ :: _ =>
    match Switch.named? s with
    | some switch => .ok (.option switch none)
    | none =>
      let (start, value?) := splitValue s
      match value?, Switch.named? start with
      | some value, some switch => .ok (ofValue start switch value)
      | _, _ =>
        match candidates s with
        | [] => .ok (if isNegativeNumber s || s.contains ' ' then .plain else .unknown)
        | [(_, word)] => .ok word
        | found =>
          .error (.misuse ("ambiguous option: ".toList ++ s ++ " could match ".toList
            ++ [',', ' '].intercalate (found.map (·.1))))
  | _ => .ok .plain

/-- The double dash. -/
def doubleDash : Text := ['-', '-']

/-- The arguments with what they are. -/
def ofTexts : List Text → Except EarlyExit (List (Text × Word))
  | [] => .ok []
  | s :: rest =>
    if s = doubleDash then .ok ((s, .separator) :: rest.map (·, .plain))
    else
      match ofText s with
      | .error e => .error e
      | .ok word =>
        match ofTexts rest with
        | .error e => .error e
        | .ok words => .ok ((s, word) :: words)

end Word

/-! ## All arguments -/

namespace Arguments

/-- The arguments with the value of an option, in the place of a value that the
option has had. -/
def setValue (a : Arguments) (switch : Switch) (value : Text) : Except EarlyExit Arguments :=
  match switch with
  | .seed =>
    if value = Word.doubleDash then .ok { a with seed? := some .blank }
    else
      match Text.typedInteger? value with
      | some n => .ok { a with seed? := some (.value n) }
      | none => .error (switch.complaint ("invalid int value: ".toList ++ Text.quoted value))
  | .settings =>
    if value = Word.doubleDash then .ok { a with settings? := some .blank }
    else .ok { a with settings? := some (.value (.ofText value)) }
  | _ => .ok a

/-- The arguments with an option that has no value. -/
def setFlag (a : Arguments) : Switch → Except EarlyExit Arguments
  | .help => .error .help
  | .validate => .ok { a with validate := true }
  | .saveSettings => .ok { a with saveSettings := true }
  | _ => .ok a

/-- What comes of a text joined to the option of one letter, which is the option for
help.  The same letter says the same again; from the first other character on, the
text is a value, and the option takes none.  No text at all is a value as well. -/
def lettersExit (switch : Switch) (text : Text) : EarlyExit :=
  match text, text.dropWhile (· = 'h') with
  | _ :: _, [] => .help
  | _, value => switch.ignoredValue value

/-- The arguments after words, and the words that are of no use.  The first plain
word is the story. -/
def ofWords (a : Arguments) : List (Text × Word) → Except EarlyExit (Arguments × List Text)
  | [] => .ok (a, [])
  | (s, .plain) :: rest =>
    match a.story?, rest with
    | none, (_, .separator) :: rest => .ok ({ a with story? := some s }, rest.map (·.1))
    | none, rest => ofWords { a with story? := some s } rest
    | some _, rest => (ofWords a rest).map fun (a, unused) => (a, s :: unused)
  | (s, .separator) :: rest =>
    match a.story?, rest with
    | none, (story, _) :: rest => .ok ({ a with story? := some story }, rest.map (·.1))
    | none, [] => .ok (a, [])
    | some _, rest => .ok (a, s :: rest.map (·.1))
  | (s, .unknown) :: rest => (ofWords a rest).map fun (a, unused) => (a, s :: unused)
  | (_, .letters switch letters) :: _ => .error (lettersExit switch letters)
  | (_, .option switch (some value)) :: rest =>
    if switch.takesValue then
      match a.setValue switch value with
      | .error e => .error e
      | .ok a => ofWords a rest
    else .error (switch.ignoredValue value)
  | (_, .option switch none) :: rest =>
    if switch.takesValue then
      match rest with
      | (value, .plain) :: rest =>
        match a.setValue switch value with
        | .error e => .error e
        | .ok a => ofWords a rest
      | _ => .error (switch.complaint "expected one argument".toList)
    else
      match a.setFlag switch with
      | .error e => .error e
      | .ok a => ofWords a rest

/-- What a command line says. -/
def ofTexts (args : List Text) : Except EarlyExit Arguments :=
  match Word.ofTexts args with
  | .error e => .error e
  | .ok words =>
    match ofWords .empty words with
    | .error e => .error e
    | .ok (a, []) => .ok a
    | .ok (_, unused) =>
      .error (.misuse ("unrecognized arguments: ".toList ++ [' '].intercalate unused))

end Arguments

end Gamebook
