import Gamebook.Audit
import Gamebook.CommandLine.Help
import Gamebook.Console.Shell
set_option autoImplicit false

/-!
# The program

What the program does once the command line has been read: it keeps the settings
if it is told to, and then audits a story, plays one, or opens the shell.  It ends
with a status: zero if all is well.
-/

namespace Gamebook

/-- What the program is doing. -/
inductive Run (σ : Type) where
  /-- It is about to print a report and to end with a status. -/
  | reporting (world : World) (lines : List Text) (status : Nat)
  /-- It plays one story. -/
  | playing (play : Play σ)
  /-- It runs the shell. -/
  | talking (shell : Shell σ)
  /-- It is done, perhaps by an error that is not for the reader. -/
  | ended (world : World) (result : Except SessionError Nat)

namespace Run

variable {σ : Type}

/-- The world as it is now. -/
def world : Run σ → World
  | .reporting w .. => w
  | .playing p => p.world
  | .talking s => s.currentWorld
  | .ended w _ => w

/-- The run in another world. -/
def moveTo (w : World) : Run σ → Run σ
  | .reporting _ lines status => .reporting w lines status
  | .playing p => .playing { p with world := w }
  | .talking s => .talking (s.moveTo w)
  | .ended _ result => .ended w result

/-- The end by a fault. -/
def broken (w : World) (f : Fault) : Run σ := .ended w (.error (.fault f))

/-- What is said when there is no story to audit. -/
def auditNeedsStory : Text := "--validate needs a story or bookmark path.".toList

/-- The last line of the report on an audit. -/
def auditSummary (rooms findings : Nat) : Text :=
  "Story graph validation summary: rooms=".toList ++ Text.ofNat rooms ++ " issues=".toList
    ++ Text.ofNat findings

/-- Reports on an audit of the story that the reader names; the status tells whether
there are errors. -/
def auditing (w : World) (m : Markers) (name : Text) : Run σ :=
  match w.openStory m name with
  | .broken f => broken w f
  | .refused message => .reporting w [message] 1
  | .opened loaded =>
    match audit loaded.story (some loaded.room) with
    | .error e => broken w (.overlong e)
    | .ok findings =>
      let notices := findings.map Finding.notice
      .reporting w
        (notices.map Notice.line ++ [auditSummary loaded.story.rooms.length findings.length])
        (if notices.any Notice.isError then 1 else 0)

/-- Plays the story that the reader names. -/
def playingNamed (luck : Int → σ) (w : World) (settings : Settings) (m : Markers)
    (name : Text) : Run σ :=
  match w.openStory m name with
  | .broken f => broken w f
  | .refused message => .reporting w [message] 1
  | .opened loaded =>
    match Play.seeded luck w settings m loaded with
    | .ok play => .playing play
    | .error f => broken w f

/-- The file of the settings: the one on the command line, or the usual one if the
command line names none or leaves it blank. -/
def settingsPath (w : World) (a : Arguments) : Path :=
  match a.settings? with
  | some (.value p) => p
  | some .blank | none => w.settingsPath

/-- The settings that the command line asks for: those in the file, with its own
seed if it has one.  A seed that it leaves blank takes the place of the seed in the
file, too. -/
def settings (w : World) (a : Arguments) : Settings :=
  let kept := w.loadSettings (settingsPath w a)
  match a.seed? with
  | some (.value seed) => { kept with seed? := some seed }
  | some .blank => { kept with seed? := none }
  | none => kept

/-- The world with the settings kept, if the command line asks for it. -/
def keepSettings (w : World) (a : Arguments) : Except Fault Unit × World :=
  if a.saveSettings then w.saveSettings (settingsPath w a) (settings w a) else (.ok (), w)

/-- The run that a command line asks for. -/
def start (luck : Int → σ) (w : World) (a : Arguments) : Run σ :=
  let chosen := settings w a
  match keepSettings w a with
  | (.error f, w) => broken w f
  | (.ok (), w) =>
    match a.validate, a.story? with
    | true, none | true, some [] => .reporting w [auditNeedsStory] 2
    | true, some name => auditing w .standard name
    | false, none | false, some [] => .talking ⟨w, chosen, .standard, .opening⟩
    | false, some name => playingNamed luck w chosen .standard name

/-- The turns of the program. -/
def turn (dice : Dice σ) (luck : Int → σ) : Run σ → Turn (Run σ) (Except SessionError Nat)
  | .reporting w lines status => .say lines (.ended w (.ok status))
  | .playing p =>
    (p.turn dice).within .playing fun
      | .ok _ => .say [] (.ended p.world (.ok 0))
      | .error (.fault .endOfInput) => .say [[]] (.ended p.world (.ok 0))
      | .error e => .say [] (.ended p.world (.error e))
  | .talking s =>
    (s.turn dice luck).within .talking fun
      | .ok () => .say [] (.ended s.world (.ok 0))
      | .error e => .say [] (.ended s.world (.error e))
  | .ended _ result => .stop result

end Run

end Gamebook
