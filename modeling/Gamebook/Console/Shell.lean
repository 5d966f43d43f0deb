import Gamebook.Console.Play
set_option autoImplicit false

/-!
# One story after another

The shell asks for a story, plays it, and asks whether to go on, until the reader
has had enough or the input ends.
-/

namespace Gamebook

/-- What the shell is doing. -/
inductive Scene (σ : Type) where
  /-- It is about to welcome the reader. -/
  | opening
  /-- It waits for the name of a story. -/
  | asking
  /-- It plays a story. -/
  | playing (play : Play σ)
  /-- It waits to hear whether to go on. -/
  | resting
  /-- It is done, perhaps by an error that is not for the reader. -/
  | closed (result : Except SessionError Unit)

/-- The shell; while a story is played, the world is the world of the play. -/
structure Shell (σ : Type) where
  world : World
  settings : Settings
  markers : Markers
  scene : Scene σ

namespace Shell

variable {σ : Type}

/-- The first words. -/
def welcome : Text := "Welcome to this choose your own adventure system!".toList

/-- The last words. -/
def thanks : Text := "Thank you for playing!".toList

/-- The prompt for a story. -/
def storyPrompt : Text := "Please enter the story filename: ".toList

/-- The prompt after a play. -/
def againPrompt : Text := "Do you want to try again? ".toList

/-- The world as it is now. -/
def currentWorld (s : Shell σ) : World :=
  match s.scene with
  | .playing p => p.world
  | _ => s.world

/-- The shell in another world. -/
def moveTo (s : Shell σ) (w : World) : Shell σ :=
  match s.scene with
  | .playing p => { s with world := w, scene := .playing { p with world := w } }
  | _ => { s with world := w }

/-- The shell in another scene. -/
def turnTo (s : Shell σ) (scene : Scene σ) : Shell σ := { s with scene := scene }

/-- The shell when the input has ended: the line of the prompt is closed first. -/
def cutOff (s : Shell σ) : List Text × Shell σ :=
  ([[], thanks], s.turnTo (.closed (.ok ())))

/-- The shell after a fault. -/
def broken (s : Shell σ) (f : Fault) : List Text × Shell σ :=
  ([], s.turnTo (.closed (.error (.fault f))))

/-- Opens the story that the reader names. -/
def openNamed (luck : Int → σ) (s : Shell σ) (name : Text) : List Text × Shell σ :=
  match s.world.openStory s.markers name with
  | .opened loaded =>
    match Play.seeded luck s.world s.settings s.markers loaded with
    | .ok play => ([], s.turnTo (.playing play))
    | .error f => s.broken f
  | .refused message => ([message], s.turnTo .resting)
  | .broken f => s.broken f

/-- The turns of the shell; every play starts with the dice as the settings seed
them. -/
def turn (dice : Dice σ) (luck : Int → σ) (s : Shell σ) :
    Turn (Shell σ) (Except SessionError Unit) :=
  match s.scene with
  | .opening => .say [welcome] (s.turnTo .asking)
  | .asking =>
    .ask storyPrompt fun
      | none => s.cutOff
      | some line => s.openNamed luck (answer line)
  | .playing p =>
    (p.turn dice).within (fun p => s.turnTo (.playing p)) fun result =>
      let s := { s with world := p.world }
      match result with
      | .ok _ => .say [] (s.turnTo .resting)
      | .error (.fault .endOfInput) =>
        let (lines, s) := s.cutOff
        .say lines s
      | .error e => .say [] (s.turnTo (.closed (.error e)))
  | .resting =>
    .ask againPrompt fun
      | none => s.cutOff
      | some line =>
        if initial line = ['n'] then ([thanks], s.turnTo (.closed (.ok ())))
        else ([], s.turnTo .asking)
  | .closed result => .stop result

end Shell

end Gamebook
