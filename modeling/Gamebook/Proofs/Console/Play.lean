import Gamebook.Proofs.Console.Opening
import Gamebook.Proofs.Console.Transcript
import Gamebook.Proofs.Session.Moves
set_option autoImplicit false

/-!
# Plays at the console

A play prints rooms and asks what to do, turn after turn.  When it waits for a choice, the
choices have been printed last, and what it comes to in the end is what has been said last.
Here this is said for each phase of a play, and shown to be kept by every turn.
-/

namespace Gamebook

/-! ## Numbers of choices -/

/-- The number that makes a choice is one of those that are printed. -/
theorem lt_of_action?_eq_choose {count index : Nat} {line : Text}
    (h : action? count line = some (.choose index)) : index < count := by
  rw [action?, Option.map_eq_some_iff] at h
  obtain ⟨n, hn, haction⟩ := h
  have hbounds : bookmarkNumber ≤ n ∧ n ≤ count - 1 := by
    unfold integerWithin? at hn
    split at hn
    · split at hn
      · rename_i hbounds
        exact Option.some.inj hn ▸ hbounds
      · cases hn
    · cases hn
  split at haction
  · cases haction
  · rename_i hquit
    split at haction
    · cases haction
    · rename_i hbookmark
      obtain rfl := Action.choose.inj haction
      rw [quitNumber] at hquit
      rw [bookmarkNumber] at hbookmark hbounds
      omega

theorem unlines_choiceLinesFrom (cs : List Choice) (number : Nat) :
    Text.unlines (choiceLinesFrom number (cs.map (·.text))) =
      (cs.mapIdx fun i c => Text.ofNat (number + i) ++ ") ".toList ++ c.text ++ ['\n']).flatten := by
  induction cs generalizing number with
  | nil => rfl
  | cons c rest ih =>
    have hnext : (fun i (c : Choice) =>
          Text.ofNat (number + 1 + i) ++ ") ".toList ++ c.text ++ ['\n']) =
        fun i c => Text.ofNat (number + (i + 1)) ++ ") ".toList ++ c.text ++ ['\n'] := by
      funext i c
      rw [Nat.add_assoc, Nat.add_comm 1 i]
    rw [List.map_cons, choiceLinesFrom, Text.unlines_cons, ih, List.mapIdx_cons, List.flatten_cons,
      hnext, Nat.add_zero, List.append_assoc _ ['\n']]
    rfl

/-- Choices are printed on a line each, with their numbers before their texts. -/
theorem unlines_choiceLines (cs : List Choice) :
    Text.unlines (choiceLines (cs.map (·.text))) =
      (cs.mapIdx fun i c => Text.ofNat i ++ ") ".toList ++ c.text ++ ['\n']).flatten := by
  rw [choiceLines, unlines_choiceLinesFrom]
  simp only [Nat.zero_add]

namespace Play

variable {σ : Type} {dice : Dice σ} {p : Play σ} {printed : Text} {unread : List Text}

/-! ## What is known about a play -/

/-- The choices of the room in which the session stands are what has been printed last, but
for lines of the reader that were refused. -/
structure Offers (p : Play σ) (printed : Text) (r : Room) (count : Nat) : Prop where
  room : p.session.room = .ok r
  count : count = (Transition.manual r.transitions).length
  printed : ∃ before tries, printed = before ++
    ((Transition.manual r.transitions).mapIdx fun i c =>
      Text.ofNat i ++ ") ".toList ++ c.text ++ ['\n']).flatten ++
    (List.replicate tries ("Choose: ".toList ++ ("Invalid value.".toList ++ ['\n']))).flatten

/-- A play has come to a result, when so much has been printed and so many lines are left. -/
inductive Closes (p : Play σ) (printed : Text) (unread : List Text) :
    Except SessionError (Option Outcome) → Prop where
  /-- the story has ended well, and the reader has been told so last -/
  | completed {before : Text} (position : p.session.position = .finished .success)
      (said : printed = before ++
        ("Congratulations! You successfully completed the adventure!".toList ++ ['\n'])) :
      Closes p printed unread (.ok (some .success))
  /-- the story has ended badly, and the reader has been told so last -/
  | failed {before : Text} (position : p.session.position = .finished .failure)
      (said : printed = before ++
        ("You failed to complete the adventure. Better luck next time!".toList ++ ['\n'])) :
      Closes p printed unread (.ok (some .failure))
  /-- there is no such room, and the reader has been told so last -/
  | nowhere {room before : Text} (position : p.session.position = .active room)
      (said : printed = before ++
        ("Room '".toList ++ room ++ "' does not exist in this story.".toList ++ ['\n'])) :
      Closes p printed unread (.ok none)
  /-- there is no way on, and the reader has been told so last -/
  | stuck {room before : Text} (position : p.session.position = .active room)
      (said : printed = before ++
        ("Room '".toList ++ room ++ "' has no usable transitions.".toList ++ ['\n'])) :
      Closes p printed unread (.ok none)
  /-- the reader has been asked for the name of a bookmark file, and was told last what has come
  of it -/
  | marked {room path reply before : Text} (position : p.session.position = .active room)
      (saved : reply = "Bookmark saved in ".toList ++ path ∨
        reply = "Error saving bookmark in ".toList ++ path)
      (said : printed = before ++ ("Bookmarking current location: ".toList ++ room ++
        ". Enter bookmark filename: ".toList ++ (reply ++ ['\n']))) :
      Closes p printed unread (.ok none)
  /-- a line was asked for, and no line is left -/
  | cutOff (nothing : unread = []) : Closes p printed unread (.error (.fault .endOfInput))
  /-- a weight is too long -/
  | overlong (n : Overlong) : Closes p printed unread (.error (.fault (.overlong n)))
  /-- the null character is in the path of a bookmark file -/
  | null {path : Text} (null : '\x00' ∈ path) :
      Closes p printed unread (.error (.fault (.disk .embeddedNull path)))
  /-- a bookmark cannot be encoded -/
  | unencodable (found : Unencodable) :
      Closes p printed unread (.error (.fault (.unencodable found)))

/-- What is known about a play in a phase, when so much has been printed and so many lines are
left. -/
inductive Stands (p : Play σ) (printed : Text) (unread : List Text) : Phase → Prop where
  | arriving : Stands p printed unread .arriving
  | choosing {r : Room} {count : Nat} (offers : p.Offers printed r count) :
      Stands p printed unread (.choosing count)
  | leaving {room : Text} (position : p.session.position = .active room) :
      Stands p printed unread .leaving
  | marking {room : Text} (position : p.session.position = .active room) :
      Stands p printed unread (.marking room)
  | closed {result : Except SessionError (Option Outcome)}
      (closes : p.Closes printed unread result) : Stands p printed unread (.over result)

/-- What every turn of a play keeps. -/
structure Sound (p : Play σ) (printed : Text) (unread : List Text) : Prop where
  source : ∃ path, p.session.source? = some path
  stands : p.Stands printed unread p.phase

theorem Sound.of_closes {result : Except SessionError (Option Outcome)}
    (source : ∃ path, p.session.source? = some path) (closes : p.Closes printed unread result) :
    (p.turnTo (.over result)).Sound printed unread := by
  refine ⟨source, .closed ?_⟩
  cases closes with
  | completed position said => exact .completed position said
  | failed position said => exact .failed position said
  | nowhere position said => exact .nowhere position said
  | stuck position said => exact .stuck position said
  | marked position saved said => exact .marked position saved said
  | cutOff nothing => exact .cutOff nothing
  | overlong n => exact .overlong n
  | null null => exact .null null
  | unencodable found => exact .unencodable found

/-- What is said at the end of a story closes a play that has ended so. -/
theorem Closes.ended {outcome : Outcome} {before : Text}
    (position : p.session.position = .finished outcome)
    (said : printed = before ++ Text.unlines [outcome.farewell]) :
    p.Closes printed unread (.ok (some outcome)) := by
  rw [Text.unlines_singleton] at said
  cases outcome with
  | success => exact .completed position said
  | failure => exact .failed position said

/-! ## Turns -/

/-- What comes of arriving: the lines that are printed, and the play after them. -/
inductive Arrival (dice : Dice σ) (p : Play σ) : List Text × Play σ → Prop where
  /-- the story has ended -/
  | ended {outcome : Outcome} (position : p.session.position = .finished outcome) :
      Arrival dice p ([outcome.farewell], p.turnTo (.over (.ok (some outcome))))
  /-- the story has no such room -/
  | nowhere {id : Text} (position : p.session.position = .active id)
      (room : p.session.room = .error (.unknownRoom id)) :
      Arrival dice p ([(SessionError.unknownRoom id).message], p.turnTo (.over (.ok none)))
  /-- the room is shown, and a move leads out of it -/
  | moves {r : Room} {step : Step} {next : Session σ} (room : p.session.room = .ok r)
      (advance : p.session.advance dice = (.ok (some step), next)) :
      Arrival dice p (p.roomLines r.view, { p with session := next })
  /-- the room is shown, and the reader has to choose -/
  | waits {r : Room} {luck : σ} (room : p.session.room = .ok r)
      (advance : p.session.advance dice = (.ok none, { p.session with luck := luck })) :
      Arrival dice p (p.roomLines r.view,
        { p with session := { p.session with luck := luck },
                 phase := .choosing r.view.choices.length })
  /-- the room is shown, and nothing leads out of it -/
  | stuck {r : Room} {luck : σ} (room : p.session.room = .ok r)
      (advance : p.session.advance dice =
        (.error (.deadEnd r.id), { p.session with luck := luck })) :
      Arrival dice p (p.roomLines r.view ++ [(SessionError.deadEnd r.id).message],
        { p with session := { p.session with luck := luck }, phase := .over (.ok none) })
  /-- the room is shown, and a weight is too long -/
  | overlong {r : Room} {luck : σ} {n : Overlong} (room : p.session.room = .ok r)
      (advance : p.session.advance dice =
        (.error (.fault (.overlong n)), { p.session with luck := luck })) :
      Arrival dice p (p.roomLines r.view,
        { p with session := { p.session with luck := luck },
                 phase := .over (.error (.fault (.overlong n))) })

theorem arrival (dice : Dice σ) (p : Play σ) : p.Arrival dice (p.arrive dice) := by
  cases hposition : p.session.position with
  | finished outcome =>
    have houtcome : p.session.outcome? = some outcome := by rw [Session.outcome?, hposition]
    simp only [arrive, houtcome]
    exact .ended hposition
  | active id =>
    have houtcome : p.session.outcome? = none := by rw [Session.outcome?, hposition]
    cases hroom : p.session.room with
    | error e =>
      obtain rfl := Session.room_eq_error hposition hroom
      have hview : p.session.view = .error (.unknownRoom id) := by
        rw [Session.view, hroom]
        rfl
      simp only [arrive, houtcome, hview, fail]
      exact .nowhere hposition hroom
    | ok r =>
      have hview : p.session.view = .ok r.view := by
        rw [Session.view, hroom]
        rfl
      rcases Session.advance_of_room dice hroom with
        ⟨step, next, hadvance⟩ | ⟨luck, hadvance | hadvance | ⟨n, hadvance⟩⟩
      · simp only [arrive, houtcome, hview, hadvance]
        exact .moves hroom hadvance
      · simp only [arrive, houtcome, hview, hadvance]
        exact .waits hroom hadvance
      · simp only [arrive, houtcome, hview, hadvance, fail]
        exact .stuck hroom hadvance
      · simp only [arrive, houtcome, hview, hadvance, fail, List.append_nil]
        exact .overlong hroom hadvance

/-- What comes of what is heard at a prompt. -/
inductive Hearing (p : Play σ) : Text → Option Text → List Text × Play σ → Prop where
  /-- the end of the input -/
  | cutOff {prompt : Text} (waits : p.phase ≠ .arriving) : Hearing p prompt none ([], p.cutOff)
  /-- a line that asks for nothing that can be done -/
  | refuses {count : Nat} {line : Text} (phase : p.phase = .choosing count)
      (action : action? count line = none) :
      Hearing p actionPrompt (some line) ([invalidAnswer], p)
  /-- a line that asks for something -/
  | acts {count : Nat} {line : Text} {a : Action} (phase : p.phase = .choosing count)
      (action : action? count line = some a) : Hearing p actionPrompt (some line) ([], p.act a)
  /-- a line that confirms giving up or does not -/
  | leaves {line : Text} (phase : p.phase = .leaving) :
      Hearing p leavePrompt (some line) ([], p.leave (initial line = ['y']))
  /-- the name of a bookmark file -/
  | marks {room line : Text} (phase : p.phase = .marking room) :
      Hearing p (markPrompt room) (some line) (p.mark (answer line))

theorem arrive_of_say {lines : List Text} {next : Play σ} (hturn : p.turn dice = .say lines next) :
    p.phase = .arriving ∧ p.arrive dice = (lines, next) := by
  cases hphase : p.phase with
  | arriving =>
    simp only [turn, hphase, Turn.say.injEq] at hturn
    exact ⟨rfl, Prod.ext hturn.1 hturn.2⟩
  | _ => simp [turn, hphase] at hturn

theorem hearing_of_ask {prompt : Text} {hear : Option Text → List Text × Play σ}
    (hturn : p.turn dice = .ask prompt hear) (heard : Option Text) :
    p.Hearing prompt heard (hear heard) := by
  cases hphase : p.phase with
  | choosing count =>
    simp only [turn, hphase, Turn.ask.injEq] at hturn
    obtain ⟨rfl, rfl⟩ := hturn
    cases heard with
    | none => exact .cutOff (by simp [hphase])
    | some line =>
      cases haction : action? count line with
      | none =>
        simp only [haction]
        exact .refuses hphase haction
      | some a =>
        simp only [haction]
        exact .acts hphase haction
  | leaving =>
    simp only [turn, hphase, Turn.ask.injEq] at hturn
    obtain ⟨rfl, rfl⟩ := hturn
    cases heard with
    | none => exact .cutOff (by simp [hphase])
    | some line => exact .leaves hphase
  | marking room =>
    simp only [turn, hphase, Turn.ask.injEq] at hturn
    obtain ⟨rfl, rfl⟩ := hturn
    cases heard with
    | none => exact .cutOff (by simp [hphase])
    | some line => exact .marks hphase
  | _ => simp [turn, hphase] at hturn

theorem phase_of_stop {result : Except SessionError (Option Outcome)}
    (hturn : p.turn dice = .stop result) : p.phase = .over result := by
  unfold turn at hturn
  split at hturn
  · cases hturn
  · cases hturn
  · cases hturn
  · cases hturn
  · rename_i found hphase
    rw [hphase, Turn.stop.inj hturn]

/-! ## What turns keep -/

theorem sound_arrive (hphase : p.phase = .arriving)
    (source : ∃ path, p.session.source? = some path) (dice : Dice σ) (printed : Text)
    (unread : List Text) :
    (p.arrive dice).2.Sound (printed ++ Text.unlines (p.arrive dice).1) unread := by
  have harrival := p.arrival dice
  generalize p.arrive dice = after at harrival
  cases harrival with
  | ended position => exact .of_closes source (.ended position rfl)
  | @nowhere id position room =>
    have hsaid : printed ++ Text.unlines [(SessionError.unknownRoom id).message] = printed ++
        ("Room '".toList ++ id ++ "' does not exist in this story.".toList ++ ['\n']) :=
      congrArg (printed ++ ·) (Text.unlines_singleton _)
    exact .of_closes source (.nowhere position hsaid)
  | @moves r step next room advance =>
    -- the play arrives again, at the room that has been entered or at the end
    have hsource := (Session.advance_story dice p.session).2
    rw [advance] at hsource
    refine ⟨hsource ▸ source, ?_⟩
    rw [hphase]
    exact .arriving
  | @waits r luck room advance =>
    -- the choices are printed after the room
    have hprinted : Text.unlines (p.roomLines r.view) =
        Text.unlines (r.view.lines p.settings p.world.isDebugging) ++
          ((Transition.manual r.transitions).mapIdx fun i c =>
            Text.ofNat i ++ ") ".toList ++ c.text ++ ['\n']).flatten := by
      rw [roomLines, Text.unlines_append, ← unlines_choiceLines]
      rfl
    exact ⟨source, .choosing ⟨room, List.length_map _, _, 0, by
      rw [hprinted, ← List.append_assoc, List.replicate_zero, List.flatten_nil, List.append_nil]⟩⟩
  | @stuck r luck room advance =>
    have hsaid : Text.unlines [(SessionError.deadEnd r.id).message] =
        "Room '".toList ++ r.id ++ "' has no usable transitions.".toList ++ ['\n'] :=
      Text.unlines_singleton _
    rw [Text.unlines_append, hsaid, ← List.append_assoc]
    exact ⟨source, .closed (.stuck (Session.position_of_room room) rfl)⟩
  | overlong room advance => exact ⟨source, .closed (.overlong _)⟩

theorem sound_cutOff (source : ∃ path, p.session.source? = some path) (hend : unread.head? = none) :
    p.cutOff.Sound printed unread.tail := by
  rw [List.head?_eq_none_iff.mp hend]
  exact .of_closes source (.cutOff rfl)

theorem Offers.position {r : Room} {count : Nat} (h : p.Offers printed r count) :
    p.session.position = .active r.id := Session.position_of_room h.room

/-- A line that is refused leaves the offer as it is. -/
theorem Offers.refuse {r : Room} {count : Nat} (h : p.Offers printed r count) :
    p.Offers (printed ++ (actionPrompt ++ Text.unlines [invalidAnswer])) r count := by
  obtain ⟨before, tries, hprinted⟩ := h.printed
  have htry : actionPrompt ++ Text.unlines [invalidAnswer] =
      "Choose: ".toList ++ ("Invalid value.".toList ++ ['\n']) :=
    congrArg (actionPrompt ++ ·) (Text.unlines_singleton _)
  refine ⟨h.room, h.count, before, tries + 1, ?_⟩
  rw [hprinted, htry, List.replicate_succ', List.flatten_append, List.flatten_singleton,
    List.append_assoc]

/-- A number that the reader may type makes the choice that has been printed with it. -/
theorem Offers.choose {r : Room} {count index : Nat} {line : Text} (h : p.Offers printed r count)
    (haction : action? count line = some (.choose index)) :
    ∃ c, (Transition.manual r.transitions)[index]? = some c ∧
      p.session.choose index = (.ok ⟨r.id, some c.target, none, false⟩,
        p.session.enter c.target) := by
  have hlt : index < (Transition.manual r.transitions).length :=
    h.count ▸ lt_of_action?_eq_choose haction
  have hchoice := List.getElem?_eq_getElem hlt
  exact ⟨_, hchoice, Session.choose_of_getElem? h.room hchoice⟩

theorem sound_act (source : ∃ path, p.session.source? = some path) {r : Room} {count : Nat}
    (h : p.Offers printed r count) {line : Text} {a : Action} (haction : action? count line = some a)
    (later : Text) : (p.act a).Sound later unread := by
  cases a with
  | quit => exact ⟨source, .leaving h.position⟩
  | bookmark =>
    have hid : p.session.roomId = .ok r.id := by rw [Session.roomId, h.position]
    simp only [act, hid]
    exact ⟨source, .marking h.position⟩
  | choose index =>
    obtain ⟨c, -, hchoose⟩ := h.choose haction
    simp only [act, hchoose]
    exact ⟨source, .arriving⟩

theorem sound_leave (source : ∃ path, p.session.source? = some path) {room : Text}
    (hposition : p.session.position = .active room) (confirmed : Bool) :
    (p.leave confirmed).Sound printed unread := by
  cases confirmed with
  | false => exact ⟨source, .arriving⟩
  | true =>
    have hid : p.session.roomId = .ok room := by rw [Session.roomId, hposition]
    simp only [leave, Session.quit, hid]
    exact ⟨source, .arriving⟩

theorem sound_mark (source : ∃ path, p.session.source? = some path) {room : Text}
    (hposition : p.session.position = .active room) (path printed : Text) (unread : List Text) :
    (p.mark path).2.Sound (printed ++ (markPrompt room ++ Text.unlines (p.mark path).1)) unread := by
  obtain ⟨story, hstory⟩ := source
  have hmarks := marks_mark hstory hposition path
  have hsaid (reply : Text) : printed ++ (markPrompt room ++ Text.unlines [reply]) =
      printed ++ ("Bookmarking current location: ".toList ++ room ++
        ". Enter bookmark filename: ".toList ++ (reply ++ ['\n'])) :=
    congrArg (printed ++ ·) (congrArg (markPrompt room ++ ·) (Text.unlines_singleton reply))
  generalize p.mark path = after at hmarks
  cases hmarks with
  | null null => exact .of_closes ⟨story, hstory⟩ (.null null)
  | refused =>
    exact .of_closes ⟨story, hstory⟩ (.marked hposition (.inr rfl) (hsaid _))
  | emptied => exact ⟨⟨story, hstory⟩, .closed (.unencodable _)⟩
  | saved =>
    exact ⟨⟨story, hstory⟩, .closed (.marked hposition (.inl rfl) (hsaid _))⟩

/-- A turn in which lines are printed keeps what is known. -/
theorem Sound.say (h : p.Sound printed unread) {lines : List Text} {next : Play σ}
    (hturn : p.turn dice = .say lines next) : next.Sound (printed ++ Text.unlines lines) unread := by
  obtain ⟨hphase, harrive⟩ := arrive_of_say hturn
  have hsound := sound_arrive hphase h.source dice printed unread
  rwa [harrive] at hsound

/-- A turn in which a line is heard keeps what is known. -/
theorem Sound.ask (h : p.Sound printed unread) {prompt : Text}
    {hear : Option Text → List Text × Play σ} (hturn : p.turn dice = .ask prompt hear) :
    (hear unread.head?).2.Sound (printed ++ (prompt ++ Text.unlines (hear unread.head?).1))
      unread.tail := by
  obtain ⟨source, stands⟩ := h
  have hhearing := hearing_of_ask hturn unread.head?
  generalize hheard : unread.head? = heard at hhearing ⊢
  generalize hear heard = after at hhearing
  cases hhearing with
  | cutOff waits => exact sound_cutOff source hheard
  | refuses phase action =>
    rw [phase] at stands
    cases stands with
    | choosing offers =>
      refine ⟨source, ?_⟩
      rw [phase]
      exact .choosing offers.refuse
  | acts phase action =>
    rw [phase] at stands
    cases stands with
    | choosing offers => exact sound_act source offers action _
  | leaves phase =>
    rw [phase] at stands
    cases stands with
    | leaving position => exact sound_leave source position _
  | marks phase =>
    rw [phase] at stands
    cases stands with
    | marking position => exact sound_mark source position _ _ _

theorem sound_start (w : World) (settings : Settings) (m : Markers) (loaded : Loaded) (luck : σ)
    (input : List Text) : (start w settings m loaded luck).Sound [] input :=
  ⟨⟨loaded.path, rfl⟩, .arriving⟩

/-- What is known about a play is known at the end of every transcript. -/
theorem Sound.at_end (h : p.Sound printed unread) (dice : Dice σ) (turns : Nat) :
    (transcript (turn dice) turns p unread).state.Sound
      (printed ++ (transcript (turn dice) turns p unread).output)
      (transcript (turn dice) turns p unread).unread :=
  transcript_invariant (I := fun printed (q : Play σ) unread => q.Sound printed unread)
    (fun hs hturn => hs.say hturn) (fun hs hturn => hs.ask hturn) turns h

end Play

end Gamebook
