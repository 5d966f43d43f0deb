import Gamebook.Proofs.Console.Play
set_option autoImplicit false

/-!
# What a play does with its session

A play at the console does one thing after another with its session.  Whatever the reader
types, it asks for nothing that the session has not to offer: nothing is asked of a story that
has ended, and choices are made by numbers that have been printed.
-/

namespace Gamebook

/-- The session was asked for something that it has not to offer: the story has ended, or there
is no such choice. -/
def SessionError.IsMisuse : SessionError → Prop
  | .alreadyEnded | .invalidChoice .. => True
  | _ => False

namespace Play

variable {σ : Type} {dice : Dice σ} {p : Play σ} {printed : Text} {unread : List Text}

/-! ## Turns as operations -/

/-- What a play does with its session in one turn, when it hears a line or the end of the
input. -/
def uses (p : Play σ) (heard : Option Text) : List Operation :=
  match p.phase with
  | .arriving =>
    match p.session.outcome?, p.session.view with
    | some _, _ => []
    | none, .error _ => [.view]
    | none, .ok _ => [.view, .advance]
  | .choosing count =>
    match heard.bind (action? count) with
    | some (.choose index) => [.choose index]
    | some .bookmark => [.roomId]
    | _ => []
  | .leaving => if heard.map initial = some ['y'] then [.quit] else []
  | .marking _ => heard.toList.map fun line => .bookmark (answer line)
  | .over _ => []

/-- What a play does with its session in its turns for lines of input. -/
def operations (dice : Dice σ) : Nat → Play σ → List Text → List Operation
  | 0, _, _ => []
  | turns + 1, p, input =>
    match p.turn dice with
    | .stop _ => []
    | .say _ next => p.uses none ++ operations dice turns next input
    | .ask _ hear => p.uses input.head? ++ operations dice turns (hear input.head?).2 input.tail

/-- The session of a play in its world. -/
def situation (p : Play σ) : Situation σ := ⟨p.session, p.world⟩

/-- At the end of the input nothing is done with the session. -/
theorem uses_none (hphase : p.phase ≠ .arriving) : p.uses none = [] := by
  unfold uses
  split
  · exact absurd ‹_› hphase
  · rfl
  · rfl
  · rfl
  · rfl

/-! ## Operations -/

/-- Operations lead from a play to another one, and the session has all of them to offer:
none is refused because the story has ended or has no such choice. -/
structure Leads (dice : Dice σ) (p : Play σ) (ops : List Operation) (next : Play σ) : Prop where
  situation : (p.situation.run dice p.markers ops).2 = next.situation
  markers : next.markers = p.markers
  fit : ∀ answer ∈ (p.situation.run dice p.markers ops).1, ∀ e, answer = .error (.session e) →
    ¬ e.IsMisuse

theorem Leads.stay {next : Play σ} (hsituation : p.situation = next.situation)
    (hmarkers : next.markers = p.markers) : p.Leads dice [] next :=
  ⟨hsituation, hmarkers, by simp [Situation.run]⟩

theorem Leads.single {op : Operation} {a : Except SaveError Answer} {next : Play σ}
    (hperform : p.situation.perform dice p.markers op = (a, next.situation))
    (hmarkers : next.markers = p.markers)
    (hfit : ∀ e, a = .error (.session e) → ¬ e.IsMisuse) : p.Leads dice [op] next := by
  have hrun : p.situation.run dice p.markers [op] = ([a], next.situation) := by
    rw [Situation.run_cons, hperform]
    rfl
  refine ⟨congrArg Prod.snd hrun, hmarkers, ?_⟩
  rw [hrun]
  simpa using hfit

theorem Leads.append {ops more : List Operation} {next last : Play σ}
    (h : p.Leads dice ops next) (hmore : next.Leads dice more last) :
    p.Leads dice (ops ++ more) last := by
  obtain ⟨hsituation, hmarkers, hfit⟩ := hmore
  rw [h.markers, ← h.situation] at hsituation hfit
  refine ⟨?_, hmarkers.trans h.markers, ?_⟩
  · rw [Situation.run_append, hsituation]
  · rw [Situation.run_append_answers]
    intro answer hanswer
    rcases List.mem_append.mp hanswer with hfirst | hsecond
    · exact h.fit answer hfirst
    · exact hfit answer hsecond

theorem Leads.view {result : Except SessionError View} (hview : p.session.view = result)
    {next : Play σ} (hsituation : p.situation = next.situation)
    (hmarkers : next.markers = p.markers) (hfit : ∀ e, result = .error e → ¬ e.IsMisuse) :
    p.Leads dice [.view] next := by
  refine .single (a := Situation.answer .view result) ?_ hmarkers ?_
  · rw [← hview, ← hsituation]
    rfl
  · intro e he
    cases result with
    | error e' =>
      cases he
      exact hfit e rfl
    | ok view => cases he

theorem Leads.advance {result : Except SessionError (Option Step)} {session : Session σ}
    (hadvance : p.session.advance dice = (result, session)) {next : Play σ}
    (hsituation : ⟨session, p.world⟩ = next.situation) (hmarkers : next.markers = p.markers)
    (hfit : ∀ e, result = .error e → ¬ e.IsMisuse) : p.Leads dice [.advance] next := by
  refine .single (a := Situation.answer .moved result) ?_ hmarkers ?_
  · rw [← hsituation]
    simp only [Situation.perform, Play.situation, hadvance]
  · intro e he
    cases result with
    | error e' =>
      cases he
      exact hfit e rfl
    | ok step? => cases he

/-- What a play does with its session when it arrives somewhere. -/
theorem leads_arrive (hphase : p.phase = .arriving) (dice : Dice σ) :
    p.Leads dice (p.uses none) (p.arrive dice).2 := by
  have harrival := p.arrival dice
  generalize p.arrive dice = after at harrival
  have huses {r : Room} (room : p.session.room = .ok r) :
      p.uses none = [.view] ++ [.advance] := by
    simp only [uses, hphase, Session.outcome?, Session.position_of_room room, Session.view, room,
      Except.map]
    rfl
  -- showing the room changes nothing, so that the advance starts from the same play
  have hview {r : Room} (room : p.session.room = .ok r) : p.Leads dice [.view] p :=
    .view (by rw [Session.view, room]) rfl rfl (by simp [Except.map])
  cases harrival with
  | @ended outcome position =>
    have huses : p.uses none = [] := by
      simp only [uses, hphase, Session.outcome?, position]
    rw [huses]
    exact .stay rfl rfl
  | @nowhere id position room =>
    have huses : p.uses none = [.view] := by
      simp only [uses, hphase, Session.outcome?, position, Session.view, room, Except.map]
    rw [huses]
    exact .view (by rw [Session.view, room]) rfl rfl (by simp [Except.map, SessionError.IsMisuse])
  | moves room advance =>
    rw [huses room]
    exact (hview room).append (.advance advance rfl rfl (by simp))
  | waits room advance =>
    rw [huses room]
    exact (hview room).append (.advance advance rfl rfl (by simp))
  | stuck room advance =>
    rw [huses room]
    exact (hview room).append (.advance advance rfl rfl (by simp [SessionError.IsMisuse]))
  | overlong room advance =>
    rw [huses room]
    exact (hview room).append (.advance advance rfl rfl (by simp [SessionError.IsMisuse]))

/-- What a play does with its session for an action of the reader. -/
theorem Offers.leads_act {r : Room} {count : Nat} (h : p.Offers printed r count)
    (hphase : p.phase = .choosing count) {line : Text} {action : Action}
    (haction : action? count line = some action) (dice : Dice σ) :
    p.Leads dice (p.uses (some line)) (p.act action) := by
  cases action with
  | quit =>
    have huses : p.uses (some line) = [] := by
      simp only [uses, hphase, Option.bind_some, haction]
    rw [huses]
    exact .stay rfl rfl
  | bookmark =>
    have huses : p.uses (some line) = [.roomId] := by
      simp only [uses, hphase, Option.bind_some, haction]
    have hid : p.session.roomId = .ok r.id := by rw [Session.roomId, h.position]
    rw [huses]
    simp only [act, hid]
    refine .single (a := .ok (.roomId r.id)) ?_ rfl (by simp)
    simp only [Situation.perform, situation, hid]
    rfl
  | choose index =>
    have huses : p.uses (some line) = [.choose index] := by
      simp only [uses, hphase, Option.bind_some, haction]
    obtain ⟨c, -, hchoose⟩ := h.choose haction
    rw [huses]
    simp only [act, hchoose]
    refine .single (a := .ok (.moved (some ⟨r.id, some c.target, none, false⟩))) ?_ rfl (by simp)
    simp only [Situation.perform, situation, hchoose]
    rfl

theorem leads_leave (hphase : p.phase = .leaving) {room : Text}
    (hposition : p.session.position = .active room) (line : Text) (dice : Dice σ) :
    p.Leads dice (p.uses (some line)) (p.leave (initial line = ['y'])) := by
  by_cases hconfirmed : initial line = ['y']
  · have huses : p.uses (some line) = [.quit] := by
      simp only [uses, hphase, Option.map_some, hconfirmed, if_true]
    have hid : p.session.roomId = .ok room := by rw [Session.roomId, hposition]
    have hquit : p.session.quit =
        (.ok ⟨room, none, some .failure, false⟩, p.session.conclude .failure) := by
      simp only [Session.quit, hid]
    rw [huses, decide_eq_true hconfirmed]
    simp only [leave, hquit, if_true]
    refine .single (a := .ok (.moved (some ⟨room, none, some .failure, false⟩))) ?_ rfl (by simp)
    simp only [Situation.perform, situation, hquit]
    rfl
  · have huses : p.uses (some line) = [] := by
      simp only [uses, hphase, Option.map_some, Option.some.injEq, hconfirmed, if_false]
    rw [huses, decide_eq_false hconfirmed]
    exact .stay rfl rfl

theorem leads_mark {source room : Text} (hphase : p.phase = .marking room)
    (hsource : p.session.source? = some source) (hposition : p.session.position = .active room)
    (line : Text) (dice : Dice σ) :
    p.Leads dice (p.uses (some line)) (p.mark (answer line)).2 := by
  have huses : p.uses (some line) = [.bookmark (answer line)] := by
    simp only [uses, hphase]
    rfl
  rw [huses]
  have hsave := Session.saveBookmark_of_bookmark (Session.bookmark_of_active hsource hposition)
    p.markers p.world (answer line)
  -- the session can be bookmarked, so that no failure is about the session
  have hfit := World.saveBookmark_ne_session p.world p.markers (answer line) ⟨source, room⟩
  rcases hwrite : p.world.saveBookmark p.markers (answer line) ⟨source, room⟩ with ⟨result, after⟩
  rw [hwrite] at hsave hfit
  cases result with
  | ok saved =>
    refine .single (a := .ok (.saved ⟨source, room⟩)) ?_ ?_ (by simp)
    · simp only [Situation.perform, situation, mark, hsave, Except.map]
    · simp only [mark, hsave, Except.map]
  | error e =>
    refine .single (a := .error e) ?_ ?_ fun e' he' => absurd he' (by simpa using hfit e')
    · cases e <;> simp only [Situation.perform, situation, mark, hsave, Except.map]
    · cases e <;> simp only [mark, hsave, Except.map]

/-- What a play does with its session in a turn in which lines are printed. -/
theorem leads_of_say {lines : List Text} {next : Play σ}
    (hturn : p.turn dice = .say lines next) : p.Leads dice (p.uses none) next := by
  obtain ⟨hphase, harrive⟩ := arrive_of_say hturn
  have hleads := leads_arrive hphase dice
  rwa [harrive] at hleads

/-- What a play does with its session in a turn in which a line is heard. -/
theorem Sound.leads_ask (h : p.Sound printed unread) {prompt : Text}
    {hear : Option Text → List Text × Play σ} (hturn : p.turn dice = .ask prompt hear)
    (heard : Option Text) : p.Leads dice (p.uses heard) (hear heard).2 := by
  obtain ⟨⟨source, hsource⟩, stands⟩ := h
  have hhearing := hearing_of_ask hturn heard
  generalize hear heard = after at hhearing
  cases hhearing with
  | cutOff waits =>
    rw [uses_none waits]
    exact .stay rfl rfl
  | @refuses count line phase action =>
    have huses : p.uses (some line) = [] := by
      simp only [uses, phase, Option.bind_some, action]
    rw [huses]
    exact .stay rfl rfl
  | acts phase action =>
    rw [phase] at stands
    cases stands with
    | choosing offers => exact offers.leads_act phase action dice
  | leaves phase =>
    rw [phase] at stands
    cases stands with
    | leaving position => exact leads_leave phase position _ dice
  | marks phase =>
    rw [phase] at stands
    cases stands with
    | marking position => exact leads_mark phase hsource position _ dice

/-- All that a play does with its session in its turns leads to the session that it ends
with. -/
theorem Sound.leads_operations (h : p.Sound printed unread) (dice : Dice σ) (turns : Nat) :
    p.Leads dice (p.operations dice turns unread) (transcript (turn dice) turns p unread).state := by
  induction turns generalizing p printed unread with
  | zero => exact .stay rfl rfl
  | succ turns ih =>
    -- the operations are those of the turns that the transcript takes
    rw [operations, transcript]
    cases hturn : p.turn dice with
    | stop result => exact .stay rfl rfl
    | say lines next => exact (leads_of_say hturn).append (ih (h.say hturn))
    | ask prompt hear => exact (h.leads_ask hturn unread.head?).append (ih (h.ask hturn))

/-- Whatever the reader types, a play of a story never misuses its session, after however many
turns.  What it does with the session is a run of operations, none of which is refused
because the story has ended or has no such choice.  When it waits for a choice, the choices of
the room with their numbers are what has been printed last, but for lines that were refused, and
each number that it accepts makes the choice printed with it.  When it stops with an outcome, the
session has ended so and the reader has been told last; when it stops without one, the reader has
been told last that there is no such room or no way on, or what has come of a bookmark.  An error
that stops it is a fault, and the end of the input is none before all lines are read. -/
theorem never_misuses_session (dice : Dice σ) (w : World) (settings : Settings) (m : Markers)
    (loaded : Loaded) (luck : σ) (turns : Nat) (input : List Text) :
    let p := start w settings m loaded luck
    let t := transcript (turn dice) turns p input
    let played := Situation.run dice m
      ⟨.start loaded.story (some loaded.path) (some loaded.room) luck, w⟩
      (p.operations dice turns input)
    (played.2 = ⟨t.state.session, t.state.world⟩ ∧
      ∀ answer ∈ played.1, ∀ e, answer = .error (.session e) → ¬ e.IsMisuse) ∧
    (∀ count, t.state.phase = .choosing count → ∃ r, t.state.session.room = .ok r ∧
      count = (Transition.manual r.transitions).length ∧
      (∃ before tries, t.output = before ++
        ((Transition.manual r.transitions).mapIdx fun i c =>
          Text.ofNat i ++ ") ".toList ++ c.text ++ ['\n']).flatten ++
        (List.replicate tries ("Choose: ".toList ++ ("Invalid value.".toList ++ ['\n']))).flatten) ∧
      ∀ line index, action? count line = some (.choose index) → index < count ∧
        ∃ c, (Transition.manual r.transitions)[index]? = some c ∧
          t.state.session.choose index = (.ok ⟨r.id, some c.target, none, false⟩,
            t.state.session.enter c.target)) ∧
    (t.result? = some (.ok (some .success)) → t.state.session.position = .finished .success ∧
      ∃ before, t.output = before ++
        ("Congratulations! You successfully completed the adventure!".toList ++ ['\n'])) ∧
    (t.result? = some (.ok (some .failure)) → t.state.session.position = .finished .failure ∧
      ∃ before, t.output = before ++
        ("You failed to complete the adventure. Better luck next time!".toList ++ ['\n'])) ∧
    (t.result? = some (.ok none) → ∃ room before, t.state.session.position = .active room ∧
      (t.output = before ++
          ("Room '".toList ++ room ++ "' does not exist in this story.".toList ++ ['\n']) ∨
        t.output = before ++
          ("Room '".toList ++ room ++ "' has no usable transitions.".toList ++ ['\n']) ∨
        ∃ path reply, (reply = "Bookmark saved in ".toList ++ path ∨
            reply = "Error saving bookmark in ".toList ++ path) ∧
          t.output = before ++ ("Bookmarking current location: ".toList ++ room ++
            ". Enter bookmark filename: ".toList ++ (reply ++ ['\n'])))) ∧
    ∀ e, t.result? = some (.error e) →
      e = .fault .endOfInput ∧ t.unread = [] ∨ (∃ n, e = .fault (.overlong n)) ∨
        (∃ path, '\x00' ∈ path ∧ e = .fault (.disk .embeddedNull path)) ∨
        ∃ found, e = .fault (.unencodable found) := by
  intro p t played
  have hstart : p.Sound [] input := sound_start w settings m loaded luck input
  have hleads := hstart.leads_operations dice turns
  have hend : t.state.Sound t.output t.unread := hstart.at_end dice turns
  have hcloses {result : Except SessionError (Option Outcome)} (hresult : t.result? = some result) :
      t.state.Closes t.output t.unread result := by
    have hphase : t.state.phase = .over result := phase_of_stop (turn_of_transcript_result hresult)
    have hstands := hend.stands
    rw [hphase] at hstands
    cases hstands with
    | closed closes => exact closes
  refine ⟨⟨hleads.situation, hleads.fit⟩, ?_, fun hresult => ?_, fun hresult => ?_,
    fun hresult => ?_, fun e hresult => ?_⟩
  · intro count hphase
    have hstands := hend.stands
    rw [hphase] at hstands
    cases hstands with
    | @choosing r _ offers =>
      refine ⟨r, offers.room, offers.count, offers.printed, ?_⟩
      intro line index haction
      exact ⟨lt_of_action?_eq_choose haction, offers.choose haction⟩
  · cases hcloses hresult with
    | completed position said => exact ⟨position, _, said⟩
  · cases hcloses hresult with
    | failed position said => exact ⟨position, _, said⟩
  · cases hcloses hresult with
    | nowhere position said => exact ⟨_, _, position, .inl said⟩
    | stuck position said => exact ⟨_, _, position, .inr (.inl said)⟩
    | marked position saved said => exact ⟨_, _, position, .inr (.inr ⟨_, _, saved, said⟩)⟩
  · cases hcloses hresult with
    | cutOff nothing => exact .inl ⟨rfl, nothing⟩
    | overlong n => exact .inr (.inl ⟨n, rfl⟩)
    | null null => exact .inr (.inr (.inl ⟨_, null, rfl⟩))
    | unencodable found => exact .inr (.inr (.inr ⟨found, rfl⟩))

/-- A number that is not offered is refused, and giving up is thought better of. -/
example :
    (start Crossroads.outset.world .standard .standard
      ⟨"story".toList, Crossroads.story, "gate".toList⟩ [1, 5]).operations .dealt 20
        ["9".toList, "-1".toList, "no".toList, "0".toList] =
      [.view, .advance, .view, .advance, .choose 0, .view, .advance, .view, .advance, .view,
        .advance] := by
  decide +kernel

end Play

end Gamebook
