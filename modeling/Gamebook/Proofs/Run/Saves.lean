import Gamebook.CommandLine
import Gamebook.Proofs.Console.Play
import Gamebook.Proofs.Settings.Files
set_option autoImplicit false

/-!
# What a run writes

A run keeps the settings at its start, if it is told to, and then writes nothing but bookmarks,
one for each name that it is given and can save to.  The files that it opens for them are listed
here, together with the plays that they are of, and replayed: they lead from the world at the
start to the world at the end, so that every file is as it was, or holds the settings, or the
bookmark for which it was opened last.  A bookmark that cannot be encoded counts, too: its file is
opened, and then nothing is written.
-/

namespace Gamebook

variable {σ : Type}

/-- A file that is opened for a bookmark: by a play that waits for the name of a bookmark file,
under the name. -/
structure Save (σ : Type) where
  play : Play σ
  name : Text

/-! ## Saves of a run -/

/-- The file that a play opens for a bookmark when it hears a line or the end of the input.  A
bookmark that cannot be encoded is not saved, but the file has been opened by then. -/
def Play.save? (p : Play σ) (heard : Option Text) : Option (Save σ) :=
  match p.phase, heard with
  | .marking _, some line =>
    match (p.session.saveBookmark p.markers p.world (answer line)).1 with
    | .ok _ | .error (.fault (.unencodable _)) => some ⟨p, answer line⟩
    | .error _ => none
  | _, _ => none

namespace Shell

/-- The file that is opened for a bookmark when the shell hears a line or the end of the input. -/
def save? (s : Shell σ) (heard : Option Text) : Option (Save σ) :=
  match s.scene with
  | .playing p => p.save? heard
  | _ => none

end Shell

namespace Run

/-- The file that is opened for a bookmark when the program hears a line or the end of the input. -/
def save? (r : Run σ) (heard : Option Text) : Option (Save σ) :=
  match r with
  | .playing p => p.save? heard
  | .talking s => s.save? heard
  | .reporting .. | .ended .. => none

/-- The files that the program opens for bookmarks in its turns for lines of input. -/
def saves (dice : Dice σ) (luck : Int → σ) : Nat → Run σ → List Text → List (Save σ)
  | 0, _, _ => []
  | turns + 1, r, input =>
    match r.turn dice luck with
    | .stop _ => []
    | .say _ next => saves dice luck turns next input
    | .ask _ hear =>
      (r.save? input.head?).toList ++ saves dice luck turns (hear input.head?).2 input.tail

end Run

/-! ## Plays of stories that have been opened -/

/-- A play of a loaded story, which was opened by one of the names; until the play is over, its
world is the one in which it was opened. -/
structure Play.StemsFrom (p : Play σ) (names : List Text) (loaded : Loaded) : Prop where
  markers : p.markers = .standard
  story : p.session.story = loaded.story
  source : p.session.source? = some loaded.path
  opened : (∀ result, p.phase ≠ .over result) →
    ∃ name ∈ names, p.world.openStory .standard name = .opened loaded
  stands : ∀ room, p.phase = .marking room → p.session.position = .active room

/-- A file is opened in a world for a bookmark of a room, by a play of a loaded story. -/
structure Save.Records (s : Save σ) (names : List Text) (w : World) (loaded : Loaded)
    (room : Text) : Prop where
  stems : s.play.StemsFrom names loaded
  phase : s.play.phase = .marking room
  world : s.play.world = w

/-- Saves lead, one after the other, from a world to another one.  Each of them is one write, of what
the file is left with. -/
inductive Chronicle (names : List Text) : World → List (Save σ) → World → Prop where
  | nil (w : World) : Chronicle names w [] w
  | cons {w mid last : World} {s : Save σ} {saves : List (Save σ)} {loaded : Loaded} {room : Text}
      (records : s.Records names w loaded room)
      (saved : w.writeBytes (.ofText s.name)
        (w.disk.written (Bookmark.toLines .standard ⟨loaded.path, room⟩)) = .ok mid)
      (rest : Chronicle names mid saves last) : Chronicle names w (s :: saves) last

namespace Chronicle

variable {names : List Text} {w mid last : World} {saves more : List (Save σ)} {l : Location}

/-- Without saves the world stays as it is. -/
theorem eq_of_nil (h : Chronicle names w ([] : List (Save σ)) last) : last = w := by
  cases h
  rfl

theorem append (h : Chronicle names w saves mid) (hmore : Chronicle names mid more last) :
    Chronicle names w (saves ++ more) last := by
  induction h with
  | nil => exact hmore
  | cons records saved _ ih => exact .cons records saved (ih hmore)

theorem split (h : Chronicle names w (saves ++ more) last) :
    ∃ mid, Chronicle names w saves mid ∧ Chronicle names mid more last := by
  induction saves generalizing w with
  | nil => exact ⟨w, .nil w, h⟩
  | cons s saves ih =>
    cases h with
    | cons records saved rest =>
      obtain ⟨mid, hfirst, hsecond⟩ := ih rest
      exact ⟨mid, .cons records saved hfirst, hsecond⟩

/-- Paths resolve as before. -/
theorem resolve (h : Chronicle names w saves last) (p : Path) : last.resolve p = w.resolve p := by
  induction h with
  | nil => rfl
  | cons _ saved _ ih =>
    rw [ih, World.resolve_of_writeBytes saved]

end Chronicle

/-! ## Turns of a play -/

namespace Play

variable {names : List Text} {dice : Dice σ} {p : Play σ} {loaded : Loaded}

theorem stemsFrom_start {w : World} {settings : Settings} {name : Text} {luck : σ}
    (hname : name ∈ names) (hopen : w.openStory .standard name = .opened loaded) :
    (start w settings .standard loaded luck).StemsFrom names loaded where
  markers := rfl
  story := rfl
  source := rfl
  opened := fun _ => ⟨name, hname, hopen⟩
  stands := fun _ hphase => by cases hphase

theorem StemsFrom.of_eq {next : Play σ} (h : p.StemsFrom names loaded)
    (hworld : next.world = p.world) (hmarkers : next.markers = p.markers)
    (hstory : next.session.story = p.session.story)
    (hsource : next.session.source? = p.session.source?)
    (hgoing : ∀ result, p.phase ≠ .over result)
    (hstands : ∀ room, next.phase = .marking room → next.session.position = .active room) :
    next.StemsFrom names loaded where
  markers := hmarkers.trans h.markers
  story := hstory.trans h.story
  source := hsource.trans h.source
  opened := fun _ => by
    rw [hworld]
    exact h.opened hgoing
  stands := hstands

/-- Turns in which lines are printed write nothing. -/
theorem StemsFrom.say {lines : List Text} {next : Play σ} (h : p.StemsFrom names loaded)
    (hturn : p.turn dice = .say lines next) :
    next.StemsFrom names loaded ∧ next.world = p.world := by
  obtain ⟨hphase, harrive⟩ := arrive_of_say hturn
  have hgoing : ∀ result, p.phase ≠ .over result := by simp [hphase]
  have harrival := p.arrival dice
  rw [harrive] at harrival
  cases harrival with
  | ended => exact ⟨h.of_eq rfl rfl rfl rfl hgoing (by simp [turnTo]), rfl⟩
  | nowhere => exact ⟨h.of_eq rfl rfl rfl rfl hgoing (by simp [turnTo]), rfl⟩
  | moves room advance =>
    have hadvance := p.session.advance_story dice
    rw [advance] at hadvance
    exact ⟨h.of_eq rfl rfl hadvance.1 hadvance.2 hgoing (by simp [hphase]), rfl⟩
  | waits => exact ⟨h.of_eq rfl rfl rfl rfl hgoing (by simp), rfl⟩
  | stuck => exact ⟨h.of_eq rfl rfl rfl rfl hgoing (by simp), rfl⟩
  | overlong => exact ⟨h.of_eq rfl rfl rfl rfl hgoing (by simp), rfl⟩

theorem StemsFrom.act (h : p.StemsFrom names loaded) (hgoing : ∀ result, p.phase ≠ .over result)
    (a : Action) : (p.act a).StemsFrom names loaded ∧ (p.act a).world = p.world := by
  cases a with
  | quit => exact ⟨h.of_eq rfl rfl rfl rfl hgoing (by simp [Play.act, turnTo]), rfl⟩
  | bookmark =>
    rw [Play.act]
    split
    · exact ⟨h.of_eq rfl rfl rfl rfl hgoing (by simp [turnTo]), rfl⟩
    · rename_i room hroom
      refine ⟨h.of_eq rfl rfl rfl rfl hgoing ?_, rfl⟩
      intro found hfound
      obtain rfl : room = found := Phase.marking.inj hfound
      exact Session.position_of_roomId hroom
  | choose index =>
    obtain ⟨hstory, hsource⟩ := p.session.choose_story index
    rw [Play.act]
    split <;> rename_i hchoose <;> rw [hchoose] at hstory hsource
    · exact ⟨h.of_eq rfl rfl hstory hsource hgoing (by simp), rfl⟩
    · exact ⟨h.of_eq rfl rfl hstory hsource hgoing (by simp), rfl⟩

theorem StemsFrom.leave (h : p.StemsFrom names loaded) (hgoing : ∀ result, p.phase ≠ .over result)
    (confirmed : Bool) :
    (p.leave confirmed).StemsFrom names loaded ∧ (p.leave confirmed).world = p.world := by
  obtain ⟨hstory, hsource⟩ := p.session.quit_story
  rw [Play.leave]
  split
  · split <;> rename_i hquit <;> rw [hquit] at hstory hsource
    · exact ⟨h.of_eq rfl rfl hstory hsource hgoing (by simp), rfl⟩
    · exact ⟨h.of_eq rfl rfl hstory hsource hgoing (by simp), rfl⟩
  · exact ⟨h.of_eq rfl rfl rfl rfl hgoing (by simp [turnTo]), rfl⟩

theorem StemsFrom.over {next : Play σ} {result : Except SessionError (Option Outcome)}
    (h : p.StemsFrom names loaded) (hmarkers : next.markers = p.markers)
    (hsession : next.session = p.session) (hover : next.phase = .over result) :
    next.StemsFrom names loaded where
  markers := hmarkers.trans h.markers
  story := hsession ▸ h.story
  source := hsession ▸ h.source
  opened := fun hgoing => absurd hover (hgoing _)
  stands := fun room hmarking => by
    rw [hover] at hmarking
    cases hmarking

/-- A play that is given the name of a bookmark file opens it for a bookmark of its room, or
writes nothing. -/
theorem StemsFrom.mark (h : p.StemsFrom names loaded) {room : Text}
    (hphase : p.phase = .marking room) (line : Text) :
    (p.mark (answer line)).2.StemsFrom names loaded ∧
      Chronicle names p.world (p.save? (some line)).toList (p.mark (answer line)).2.world := by
  have hbookmark := Session.bookmark_of_active h.source (h.stands room hphase)
  have hwrites := p.world.writes_writeLines (answer line)
    (Bookmark.toLines .standard ⟨loaded.path, room⟩)
  simp only [Play.mark, save?, hphase, h.markers, Session.saveBookmark_of_bookmark hbookmark,
    World.saveBookmark]
  generalize hwrite : p.world.writeLines (answer line)
    (Bookmark.toLines .standard ⟨loaded.path, room⟩) = outcome at hwrites
  cases hwrites with
  | null => exact ⟨h.over h.markers.symm rfl rfl, .nil _⟩
  | refused => exact ⟨h.over h.markers.symm rfl rfl, .nil _⟩
  | emptied strays emptied =>
    refine ⟨h.over h.markers.symm rfl rfl, .cons ⟨h, hphase, rfl⟩ ?_ (.nil _)⟩
    rwa [Disk.written, strays]
  | written encodes written =>
    refine ⟨h.over h.markers.symm rfl rfl, .cons ⟨h, hphase, rfl⟩ ?_ (.nil _)⟩
    rwa [Disk.written, Disk.unencodable?_eq_none_iff.mpr encodes]

theorem save?_of_phase_ne (heard : Option Text) (h : ∀ room, p.phase ≠ .marking room) :
    p.save? heard = none := by
  unfold save?
  split
  · exact absurd ‹_› (h _)
  · rfl

theorem save?_none : p.save? none = none := by
  unfold save?
  split
  · contradiction
  · rfl

/-- Turns in which a line is heard write to the file that is opened, or nothing. -/
theorem StemsFrom.ask (h : p.StemsFrom names loaded) {prompt : Text}
    {hear : Option Text → List Text × Play σ} (hturn : p.turn dice = .ask prompt hear)
    (heard : Option Text) : (hear heard).2.StemsFrom names loaded ∧
      Chronicle names p.world (p.save? heard).toList (hear heard).2.world := by
  have hgoing : ∀ result, p.phase ≠ .over result := by
    intro result hphase
    simp [turn, hphase] at hturn
  have hhearing := hearing_of_ask hturn heard
  generalize hear heard = after at hhearing
  -- but for a name at the bookmark prompt, nothing is saved and the world stays
  have hidle {next : Play σ} (hnext : next.StemsFrom names loaded ∧ next.world = p.world)
      (hsave : p.save? heard = none) : next.StemsFrom names loaded ∧
        Chronicle names p.world (p.save? heard).toList next.world := by
    rw [hsave, hnext.2]
    exact ⟨hnext.1, .nil _⟩
  cases hhearing with
  | cutOff =>
    exact hidle ⟨h.of_eq rfl rfl rfl rfl hgoing (by simp [cutOff, turnTo]), rfl⟩ save?_none
  | refuses phase => exact hidle ⟨h, rfl⟩ (save?_of_phase_ne _ (by simp [phase]))
  | acts phase => exact hidle (h.act hgoing _) (save?_of_phase_ne _ (by simp [phase]))
  | leaves phase => exact hidle (h.leave hgoing _) (save?_of_phase_ne _ (by simp [phase]))
  | marks phase => exact h.mark phase _

end Play

/-! ## Turns of the shell and of the program -/

namespace Turn

variable {S T R Q : Type} {inside : S → T} {stopped : R → Turn T Q} {t : Turn S R}

/-- What is printed inside another program is printed by the inner program or when it stops. -/
theorem within_eq_say {lines : List Text} {next : T}
    (h : t.within inside stopped = .say lines next) :
    (∃ inner, t = .say lines inner ∧ next = inside inner) ∨
      ∃ result, t = .stop result ∧ stopped result = .say lines next := by
  cases t with
  | say found inner =>
    obtain ⟨rfl, rfl⟩ := Turn.say.inj h
    exact .inl ⟨inner, rfl, rfl⟩
  | ask => cases h
  | stop result => exact .inr ⟨result, rfl, h⟩

/-- What is asked inside another program is asked by the inner program or when it stops. -/
theorem within_eq_ask {prompt : Text} {hear : Option Text → List Text × T}
    (h : t.within inside stopped = .ask prompt hear) :
    (∃ inner, t = .ask prompt inner ∧ ∀ heard, (hear heard).2 = inside (inner heard).2) ∨
      ∃ result, t = .stop result ∧ stopped result = .ask prompt hear := by
  cases t with
  | say => cases h
  | ask found inner =>
    obtain ⟨rfl, rfl⟩ := Turn.ask.inj h
    exact .inl ⟨inner, rfl, fun _ => rfl⟩
  | stop result => exact .inr ⟨result, rfl, h⟩

end Turn

namespace Shell

variable {names : List Text} {dice : Dice σ} {luck : Int → σ} {s : Shell σ}

theorem scene_ne_playing_of_stop {result : Except SessionError Unit} {p : Play σ}
    (h : s.turn dice luck = .stop result) : s.scene ≠ .playing p := by
  intro hscene
  simp only [turn, hscene] at h
  cases hturn : p.turn dice with
  | say => simp [hturn, Turn.within] at h
  | ask => simp [hturn, Turn.within] at h
  | stop found =>
    rw [hturn, Turn.within] at h
    split at h <;> cases h

/-- What every turn of the shell keeps: a play stems from a story that has been opened. -/
structure Sound (s : Shell σ) (names : List Text) : Prop where
  markers : s.markers = .standard
  stems : ∀ p, s.scene = .playing p → ∃ loaded, p.StemsFrom names loaded

theorem currentWorld_of_scene (h : ∀ p, s.scene ≠ .playing p) : s.currentWorld = s.world := by
  unfold currentWorld
  split
  · exact absurd ‹_› (h _)
  · rfl

theorem sound_turnTo (h : s.Sound names) {scene : Scene σ} (hscene : ∀ p, scene ≠ .playing p) :
    (s.turnTo scene).Sound names ∧ (s.turnTo scene).currentWorld = s.world :=
  ⟨⟨h.markers, fun p hp => absurd hp (hscene p)⟩, currentWorld_of_scene hscene⟩

theorem Sound.say (h : s.Sound names) {lines : List Text} {next : Shell σ}
    (hturn : s.turn dice luck = .say lines next) :
    next.Sound names ∧ next.currentWorld = s.currentWorld := by
  cases hscene : s.scene with
  | opening =>
    have hworld : s.currentWorld = s.world := currentWorld_of_scene (by simp [hscene])
    simp only [turn, hscene, Turn.say.injEq] at hturn
    obtain ⟨-, rfl⟩ := hturn
    rw [hworld]
    exact sound_turnTo h (by simp)
  | asking => simp [turn, hscene] at hturn
  | resting => simp [turn, hscene] at hturn
  | closed => simp [turn, hscene] at hturn
  | playing p =>
    obtain ⟨loaded, hstems⟩ := h.stems p hscene
    have hworld : s.currentWorld = p.world := by simp only [currentWorld, hscene]
    simp only [turn, hscene] at hturn
    rw [hworld]
    rcases Turn.within_eq_say hturn with ⟨inner, hinner, rfl⟩ | ⟨result, -, hstopped⟩
    · obtain ⟨hnext, hsame⟩ := hstems.say hinner
      refine ⟨⟨h.markers, ?_⟩, hsame⟩
      intro q hq
      obtain rfl := Scene.playing.inj hq
      exact ⟨loaded, hnext⟩
    · -- the play is over, and the shell goes on in the world that it has left
      have hmoved : Sound { s with world := p.world } names := ⟨h.markers, h.stems⟩
      split at hstopped
      · obtain ⟨-, rfl⟩ := Turn.say.inj hstopped
        exact sound_turnTo hmoved (by simp)
      · obtain ⟨-, rfl⟩ := Turn.say.inj hstopped
        exact sound_turnTo hmoved (by simp)
      · obtain ⟨-, rfl⟩ := Turn.say.inj hstopped
        exact sound_turnTo hmoved (by simp)

/-- Opening a story, or failing to, writes nothing. -/
theorem sound_openNamed (h : s.Sound names) {name : Text} (hname : name ∈ names) :
    (s.openNamed luck name).2.Sound names ∧ (s.openNamed luck name).2.currentWorld = s.world := by
  unfold openNamed
  split
  · rename_i loaded hopen
    rw [h.markers] at hopen
    split
    · rename_i play hplay
      have hstart : ∃ state, play = .start s.world s.settings s.markers loaded state := by
        unfold Play.seeded at hplay
        split at hplay
        · exact ⟨_, (Except.ok.inj hplay).symm⟩
        · cases hplay
      obtain ⟨state, rfl⟩ := hstart
      refine ⟨⟨h.markers, ?_⟩, rfl⟩
      intro p hp
      obtain rfl := Scene.playing.inj hp
      rw [h.markers]
      exact ⟨loaded, Play.stemsFrom_start hname hopen⟩
    · exact sound_turnTo h (by simp)
  · exact sound_turnTo h (by simp)
  · exact sound_turnTo h (by simp)

theorem save?_of_scene (heard : Option Text) (h : ∀ p, s.scene ≠ .playing p) :
    s.save? heard = none := by
  unfold save?
  split
  · exact absurd ‹_› (h _)
  · rfl

theorem Sound.ask (h : s.Sound names) {prompt : Text} {hear : Option Text → List Text × Shell σ}
    (hturn : s.turn dice luck = .ask prompt hear) {heard : Option Text}
    (hheard : ∀ line ∈ heard, answer line ∈ names) : (hear heard).2.Sound names ∧
      Chronicle names s.currentWorld (s.save? heard).toList (hear heard).2.currentWorld := by
  -- between plays nothing is saved
  have hidle {next : Shell σ} (hscene : ∀ p, s.scene ≠ .playing p)
      (hnext : next.Sound names ∧ next.currentWorld = s.world) : next.Sound names ∧
        Chronicle names s.currentWorld (s.save? heard).toList next.currentWorld := by
    rw [save?_of_scene heard hscene, currentWorld_of_scene hscene, hnext.2]
    exact ⟨hnext.1, .nil _⟩
  cases hscene : s.scene with
  | opening => simp [turn, hscene] at hturn
  | closed => simp [turn, hscene] at hturn
  | asking =>
    simp only [turn, hscene, Turn.ask.injEq] at hturn
    obtain ⟨-, rfl⟩ := hturn
    cases heard with
    | none => exact hidle (by simp [hscene]) (sound_turnTo h (by simp))
    | some line => exact hidle (by simp [hscene]) (sound_openNamed h (hheard line rfl))
  | resting =>
    simp only [turn, hscene, Turn.ask.injEq] at hturn
    obtain ⟨-, rfl⟩ := hturn
    cases heard with
    | none => exact hidle (by simp [hscene]) (sound_turnTo h (by simp))
    | some line =>
      dsimp only
      split
      · exact hidle (by simp [hscene]) (sound_turnTo h (by simp))
      · exact hidle (by simp [hscene]) (sound_turnTo h (by simp))
  | playing p =>
    obtain ⟨loaded, hstems⟩ := h.stems p hscene
    have hworld : s.currentWorld = p.world := by simp only [currentWorld, hscene]
    have hsave : s.save? heard = p.save? heard := by simp only [save?, hscene]
    simp only [turn, hscene] at hturn
    rcases Turn.within_eq_ask hturn with ⟨inner, hinner, hhear⟩ | ⟨result, -, hstopped⟩
    · obtain ⟨hnext, hchronicle⟩ := hstems.ask hinner heard
      rw [hworld, hsave, hhear heard]
      refine ⟨⟨h.markers, ?_⟩, hchronicle⟩
      intro q hq
      obtain rfl := Scene.playing.inj hq
      exact ⟨loaded, hnext⟩
    · split at hstopped <;> cases hstopped

end Shell

namespace Run

variable {names : List Text} {dice : Dice σ} {luck : Int → σ} {r : Run σ} {w : World}
  {a : Arguments}

/-- What every turn of the program keeps: a play stems from a story that has been opened. -/
def Sound (names : List Text) : Run σ → Prop
  | .playing p => ∃ loaded, p.StemsFrom names loaded
  | .talking s => s.Sound names
  | .reporting .. | .ended .. => True

theorem Sound.say (h : r.Sound names) {lines : List Text} {next : Run σ}
    (hturn : r.turn dice luck = .say lines next) : next.Sound names ∧ next.world = r.world := by
  cases r with
  | ended => cases hturn
  | reporting =>
    obtain ⟨-, rfl⟩ := Turn.say.inj hturn
    exact ⟨trivial, rfl⟩
  | playing p =>
    obtain ⟨loaded, hstems⟩ := h
    rw [turn] at hturn
    rcases Turn.within_eq_say hturn with ⟨inner, hinner, rfl⟩ | ⟨result, -, hstopped⟩
    · obtain ⟨hnext, hsame⟩ := hstems.say hinner
      exact ⟨⟨loaded, hnext⟩, hsame⟩
    · split at hstopped <;> obtain ⟨-, rfl⟩ := Turn.say.inj hstopped <;> exact ⟨trivial, rfl⟩
  | talking s =>
    rw [turn] at hturn
    rcases Turn.within_eq_say hturn with ⟨inner, hinner, rfl⟩ | ⟨result, hclosed, hstopped⟩
    · exact Shell.Sound.say h hinner
    · have hworld : s.currentWorld = s.world :=
        Shell.currentWorld_of_scene fun p => Shell.scene_ne_playing_of_stop hclosed
      split at hstopped <;> obtain ⟨-, rfl⟩ := Turn.say.inj hstopped <;>
        exact ⟨trivial, hworld.symm⟩

theorem Sound.ask (h : r.Sound names) {prompt : Text} {hear : Option Text → List Text × Run σ}
    (hturn : r.turn dice luck = .ask prompt hear) {heard : Option Text}
    (hheard : ∀ line ∈ heard, answer line ∈ names) : (hear heard).2.Sound names ∧
      Chronicle names r.world (r.save? heard).toList (hear heard).2.world := by
  cases r with
  | ended => cases hturn
  | reporting => cases hturn
  | playing p =>
    obtain ⟨loaded, hstems⟩ := h
    rw [turn] at hturn
    rcases Turn.within_eq_ask hturn with ⟨inner, hinner, hhear⟩ | ⟨result, -, hstopped⟩
    · obtain ⟨hnext, hchronicle⟩ := hstems.ask hinner heard
      rw [hhear heard]
      exact ⟨⟨loaded, hnext⟩, hchronicle⟩
    · split at hstopped <;> cases hstopped
  | talking s =>
    rw [turn] at hturn
    rcases Turn.within_eq_ask hturn with ⟨inner, hinner, hhear⟩ | ⟨result, -, hstopped⟩
    · rw [hhear heard]
      exact Shell.Sound.ask h hinner hheard
    · split at hstopped <;> cases hstopped

/-- Nothing is left to do but to print a report and to end. -/
def IsDone : Run σ → Prop
  | .reporting .. | .ended .. => True
  | .playing _ | .talking _ => False

theorem IsDone.sound (h : r.IsDone) : r.Sound names := by
  cases r with
  | reporting => trivial
  | ended => trivial
  | playing => exact h.elim
  | talking => exact h.elim

theorem isDone_auditing (w : World) (m : Markers) (name : Text) :
    (auditing w m name : Run σ).IsDone ∧ (auditing w m name : Run σ).world = w := by
  unfold auditing
  split
  · exact ⟨trivial, rfl⟩
  · exact ⟨trivial, rfl⟩
  · split <;> exact ⟨trivial, rfl⟩

theorem sound_playingNamed {name : Text} (hname : name ∈ names) (luck : Int → σ) (w : World)
    (chosen : Settings) : (playingNamed luck w chosen .standard name).Sound names ∧
      (playingNamed luck w chosen .standard name).world = w := by
  unfold playingNamed
  split
  · exact ⟨trivial, rfl⟩
  · exact ⟨trivial, rfl⟩
  · rename_i loaded hopen
    cases hseed : chosen.seed? with
    | none =>
      simp only [Play.seeded, hseed]
      exact ⟨trivial, rfl⟩
    | some seed =>
      simp only [Play.seeded, hseed]
      exact ⟨⟨loaded, Play.stemsFrom_start hname hopen⟩, rfl⟩

/-- A run starts in the world in which the settings have been kept. -/
theorem sound_start (luck : Int → σ) (w : World) (a : Arguments)
    (hnames : ∀ name ∈ a.story?, name ∈ names) : (start luck w a).Sound names ∧
      (start luck w a).world = (keepSettings w a).2 := by
  unfold start
  split
  · rename_i hkeep
    rw [hkeep]
    exact ⟨trivial, rfl⟩
  · rename_i hkeep
    rw [hkeep]
    split
    · exact ⟨trivial, rfl⟩
    · exact ⟨trivial, rfl⟩
    · exact ⟨(isDone_auditing _ _ _).1.sound, (isDone_auditing _ _ _).2⟩
    · exact ⟨⟨rfl, fun p hp => by cases hp⟩, rfl⟩
    · exact ⟨⟨rfl, fun p hp => by cases hp⟩, rfl⟩
    · rename_i hstory
      exact sound_playingNamed (hnames _ hstory) _ _ _

/-- A bookmark is saved beside the story, but not on a shelf that is not there. -/
example :
    let r : Run (List Nat) := .playing (.start Crossroads.outset.world .standard .standard
      ⟨"story".toList, Crossroads.story, "gate".toList⟩ [])
    (r.saves .dealt (fun _ => []) 9 ["-2".toList, " aside".toList]).map (·.name) =
        ["aside".toList] ∧
      (r.saves .dealt (fun _ => []) 9 ["-2".toList, "shelf/aside".toList]).map (·.name) = [] := by
  decide +kernel

end Run

/-! ## A story in a file with a stray byte in its name -/

namespace Cellar

end Cellar

namespace Run

end Run

end Gamebook
