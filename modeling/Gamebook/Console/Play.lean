import Gamebook.Console.Question
import Gamebook.Screen
set_option autoImplicit false

/-!
# Playing a story

The reader is shown room after room and asked what to do, until the story ends,
the reader gives up or leaves a bookmark, or there is no way on.
-/

namespace Gamebook

/-- What a play is doing. -/
inductive Phase where
  /-- It is about to show a room, or to tell how the story has ended. -/
  | arriving
  /-- It waits for the reader to act, with so many choices. -/
  | choosing (count : Nat)
  /-- It waits for the reader to confirm giving up. -/
  | leaving
  /-- It waits for the name of a bookmark file, in a room. -/
  | marking (room : Text)
  /-- It is over: with an outcome, without one, or by an error that is not for the
  reader. -/
  | over (result : Except SessionError (Option Outcome))

/-- A play of a story at the console. -/
structure Play (σ : Type) where
  world : World
  settings : Settings
  markers : Markers
  session : Session σ
  phase : Phase

/-- What is said at the end of a story. -/
def Outcome.farewell : Outcome → Text
  | .success => "Congratulations! You successfully completed the adventure!".toList
  | .failure => "You failed to complete the adventure. Better luck next time!".toList

namespace Play

variable {σ : Type}

/-- The play of a story that has been loaded. -/
def start (w : World) (settings : Settings) (m : Markers) (loaded : Loaded) (luck : σ) : Play σ :=
  ⟨w, settings, m, .start loaded.story (some loaded.path) (some loaded.room) luck, .arriving⟩

/-- The play of a story that has been loaded, with the dice that are made from the
seed in the settings. -/
def seeded (luck : Int → σ) (w : World) (settings : Settings) (m : Markers) (loaded : Loaded) :
    Except Fault (Play σ) :=
  match settings.seed? with
  | some seed => .ok (.start w settings m loaded (luck seed))
  | none => .error .noSeed

/-- The play in another phase. -/
def turnTo (p : Play σ) (phase : Phase) : Play σ := { p with phase := phase }

/-- The play after an error: rooms that are missing and dead ends end it with a
message, other errors are not for the reader. -/
def fail (p : Play σ) (e : SessionError) : List Text × Play σ :=
  match e with
  | .unknownRoom _ | .deadEnd _ => ([e.message], p.turnTo (.over (.ok none)))
  | _ => ([], p.turnTo (.over (.error e)))

/-- The lines that show a room with its choices. -/
def roomLines (p : Play σ) (v : View) : List Text :=
  v.lines p.settings p.world.isDebugging ++ choiceLines v.choices

/-- Shows a room and takes the move that needs no choice, if there is one. -/
def arrive (dice : Dice σ) (p : Play σ) : List Text × Play σ :=
  match p.session.outcome? with
  | some outcome => ([outcome.farewell], p.turnTo (.over (.ok (some outcome))))
  | none =>
    match p.session.view with
    | .error e => p.fail e
    | .ok view =>
      let shown := p.roomLines view
      match p.session.advance dice with
      | (.error e, session) =>
        let (lines, p) := { p with session := session }.fail e
        (shown ++ lines, p)
      | (.ok (some _), session) => (shown, { p with session := session })
      | (.ok none, session) =>
        (shown, { p with session := session, phase := .choosing view.choices.length })

/-- Does what the reader asks for. -/
def act (p : Play σ) : Action → Play σ
  | .quit => p.turnTo .leaving
  | .bookmark =>
    match p.session.roomId with
    | .error e => p.turnTo (.over (.error e))
    | .ok room => p.turnTo (.marking room)
  | .choose index =>
    match p.session.choose index with
    | (.error e, session) => { p with session := session, phase := .over (.error e) }
    | (.ok _, session) => { p with session := session, phase := .arriving }

/-- Gives up if the reader says so. -/
def leave (p : Play σ) (confirmed : Bool) : Play σ :=
  if confirmed then
    match p.session.quit with
    | (.error e, session) => { p with session := session, phase := .over (.error e) }
    | (.ok _, session) => { p with session := session, phase := .arriving }
  else p.turnTo .arriving

/-- Saves a bookmark in a file and ends the play. -/
def mark (p : Play σ) (path : Text) : List Text × Play σ :=
  match p.session.saveBookmark p.markers p.world path with
  | (.ok _, w) =>
    (["Bookmark saved in ".toList ++ path], { p with world := w, phase := .over (.ok none) })
  | (.error (.unwritable path), w) =>
    ([SaveError.message (.unwritable path)], { p with world := w, phase := .over (.ok none) })
  | (.error (.session e), w) => ([], { p with world := w, phase := .over (.error e) })
  | (.error (.fault f), w) => ([], { p with world := w, phase := .over (.error (.fault f)) })

/-- The play when a line is asked for after the last one. -/
def cutOff (p : Play σ) : Play σ := p.turnTo (.over (.error (.fault .endOfInput)))

/-- The prompt for the name of a bookmark file. -/
def markPrompt (room : Text) : Text :=
  "Bookmarking current location: ".toList ++ room ++ ". Enter bookmark filename: ".toList

/-- The prompt before giving up. -/
def leavePrompt : Text := "Are you sure you want to quit the adventure? ".toList

/-- The turns of a play. -/
def turn (dice : Dice σ) (p : Play σ) : Turn (Play σ) (Except SessionError (Option Outcome)) :=
  match p.phase with
  | .arriving =>
    let (lines, p) := p.arrive dice
    .say lines p
  | .choosing count =>
    .ask actionPrompt fun
      | none => ([], p.cutOff)
      | some line =>
        match action? count line with
        | some a => ([], p.act a)
        | none => ([invalidAnswer], p)
  | .leaving =>
    .ask leavePrompt fun
      | none => ([], p.cutOff)
      | some line => ([], p.leave (initial line = ['y']))
  | .marking room =>
    .ask (markPrompt room) fun
      | none => ([], p.cutOff)
      | some line => p.mark (answer line)
  | .over result => .stop result

end Play

/-! ## Opening a story -/

/-- What comes of the name of a story: the story, or something to be said, or a
fault. -/
inductive Opening where
  | opened (loaded : Loaded)
  | refused (message : Text)
  | broken (fault : Fault)

/-- Opens the story that somebody names. -/
def World.openStory (w : World) (m : Markers) (name : Text) : Opening :=
  match w.storyPath w.library name with
  | .error f => .broken f
  | .ok path =>
    match w.load ⟨m, m⟩ path with
    | .ok loaded => .opened loaded
    | .error ⟨.fault f, _⟩ => .broken f
    | .error e => .refused e.cause.message

end Gamebook
