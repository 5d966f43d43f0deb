import Gamebook.CommandLine
set_option autoImplicit false

/-!
# The program at a terminal

The library decides on worlds that it is given.  Here the part of the real world
that a decision can depend on is looked up first, and what the decision has
changed is written back.
-/

namespace Gamebook.Terminal

/-! ## The disk -/

/-- A location as the operating system writes it. -/
def written (l : Location) : String := String.ofList ('/' :: ['/'].intercalate l.reverse)

/-- What is at a location of the real disk. -/
def nodeAt? (l : Location) : IO (Option Node) := do
  try
    return some (.file (← IO.FS.readBinFile (written l)))
  catch
    | .inappropriateType .. => return some .directory
    | _ => return none

/-- The world with what the real disk holds along a path. -/
def survey (w : World) (p : Path) : IO World := do
  let mut disk := w.disk
  for l in Disk.trail (w.start p) p.names do
    if l ≠ [] then
      match disk.node? l, disk.node? l.tail with
      | none, some .directory =>
        if let some node ← nodeAt? l then
          disk := disk.put l node
      | _, _ => pure ()
  return { w with disk := disk }

/-- The world with all the files that loading a story can visit, some of which
have been visited. -/
partial def surveyChain (w : World) (visited : List Text) (path : Text) : IO World := do
  if path ∈ visited then return w
  let w ← survey w (.ofText path)
  match w.content .standard path with
  | .ok (.bookmark b) => surveyChain w (path :: visited) b.story
  | _ => return w

/-- The world with all that the name of a story, or of a file to write, can lead
to. -/
def surveyName (w : World) (name : Text) : IO World := do
  let p := Path.ofText name
  let mut w ← survey w p
  if let .ok home := w.expandHome p then
    w ← survey w home
  w ← survey w (w.library.join p)
  match w.storyPath w.library name with
  | .ok path => surveyChain w [] path
  | .error _ => return w

/-- Writes what one world has more than another to the real disk. -/
def carryOut (before after : World) : IO Unit := do
  for (l, node) in after.disk.entries do
    match before.disk.node? l, node with
    | none, .directory => IO.FS.createDir (written l)
    | some (.file old), .file bytes =>
      if old.toList ≠ bytes.toList then IO.FS.writeBinFile (written l) bytes
    | _, .file bytes => IO.FS.writeBinFile (written l) bytes
    | _, .directory => pure ()

/-! ## The surroundings -/

/-- The homes of all users, by name. -/
def homes : IO (List (Text × Path)) := do
  let accounts ←
    try
      IO.FS.readFile "/etc/passwd"
    catch _ => pure ""
  return (Text.lines accounts.toList).filterMap fun line =>
    match (line.splitBy fun a b => a ≠ ':' && b ≠ ':').filter (· ≠ [':']) with
    | name :: fields => fields.dropLast.getLast?.map (name, Path.ofText ·)
    | [] => none

/-- The world around the program, the disk of which is still to be looked at. -/
def surroundings : IO World := do
  let here := (Path.ofText (← IO.currentDir).toString.toList).names.reverse
  let home := (← IO.getEnv "HOME").getD "/"
  let library := Path.join (.ofText (← IO.appDir).toString.toList) (.ofText "stories".toList)
  let w : World :=
    { disk := { entries := [] }, here := here, home := .ofText home.toList, homes := ← homes,
      library := library, debug? := (← IO.getEnv "CYOA_DEBUG").map String.toList }
  survey w ⟨['/'], here.reverse⟩

/-! ## The conversation -/

/-- Prints lines. -/
def printLines (lines : List Text) : IO Unit := do
  for line in lines do
    IO.println (String.ofList line)

/-- The next line of the input without its end, unless there is none. -/
def readLine? : IO (Option Text) := do
  let line ← (← IO.getStdin).getLine
  if line.isEmpty then return none
  return some (Text.chomp line.toList)

/-- Runs the program to its end. -/
partial def converse (s : Run Twister) : IO (Except SessionError Nat) := do
  match s.turn Dice.twister Twister.ofSeed with
  | .stop result => return result
  | .say lines next =>
    printLines lines
    converse next
  | .ask prompt _ =>
    IO.print (String.ofList prompt)
    (← IO.getStdout).flush
    let line ← readLine?
    let w ← surveyName (← surroundings) (Text.trim (line.getD []))
    let s := s.moveTo w
    match s.turn Dice.twister Twister.ofSeed with
    | .ask _ hear =>
      let (lines, next) := hear line
      carryOut w next.world
      printLines lines
      converse next
    | _ => converse s

/-- Runs the program for a command line. -/
def run (args : List Text) : IO Nat := do
  match Arguments.ofTexts args with
  | .error e =>
    printLines e.output
    for line in e.complaints do
      IO.eprintln (String.ofList line)
    return e.status
  | .ok a =>
    let w ← surroundings
    let w ← survey w (Run.settingsPath w a)
    let w ← surveyName w (a.story?.getD [])
    let s := Run.start Twister.ofSeed w a
    carryOut w s.world
    match ← converse s with
    | .ok status => return status
    | .error e =>
      IO.eprintln (String.ofList e.message)
      return 1

end Gamebook.Terminal

/-- Runs the program. -/
def main (args : List String) : IO UInt32 := do
  return UInt32.ofNat (← Gamebook.Terminal.run (args.map String.toList))
