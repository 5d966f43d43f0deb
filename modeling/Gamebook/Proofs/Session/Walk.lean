import Gamebook.Proofs.Session.Moves
set_option autoImplicit false

/-!
# Runs as walks

The moves that a run answers are a walk through the story: each leaves the room that the
one before it has entered, by a way that the story has there, and none follows the end.
The dice are rolled for the moves that a lot decides, and for nothing else.
-/

namespace Gamebook

/-! ## The moves of a run -/

/-- The move that an answer tells of. -/
def Answer.step? : Except SaveError Answer → Option Step
  | .ok (.moved step?) => step?
  | _ => none

/-- The moves that answers to operations tell of, each with the operation. -/
def Operation.moves (ops : List Operation) (answers : List (Except SaveError Answer)) :
    List (Operation × Step) :=
  (ops.zip answers).filterMap fun e => (Answer.step? e.2).map fun step => (e.1, step)

namespace Step

/-- Where a move leads. -/
def landing? (step : Step) : Option Position :=
  match step.outcome? with
  | some outcome => some (.finished outcome)
  | none => step.destination?.map .active

/-- A lot has decided the move. -/
def isDrawn (step : Step) : Bool := step.automatic && step.destination?.isSome

end Step

theorem Answer.step?_eq_some_iff {answer : Except SaveError Answer} {step : Step} :
    step? answer = some step ↔ answer = .ok (.moved (some step)) := by
  unfold step?
  split
  · simp
  · rename_i hnot
    simp only [reduceCtorEq, false_iff]
    exact fun h => hnot _ h

theorem Answer.step?_eq_none {answer : Except SaveError Answer}
    (h : ∀ step, answer ≠ .ok (.moved (some step))) : step? answer = none := by
  rw [Option.eq_none_iff_forall_ne_some]
  intro step hstep
  exact h step (step?_eq_some_iff.mp hstep)

namespace Operation

variable {op : Operation} {ops : List Operation} {answer : Except SaveError Answer}
  {answers : List (Except SaveError Answer)}

theorem moves_cons_of_none (h : Answer.step? answer = none) :
    moves (op :: ops) (answer :: answers) = moves ops answers := by
  rw [moves, List.zip_cons_cons, List.filterMap_cons, h]
  rfl

theorem moves_cons_of_some {step : Step} (h : Answer.step? answer = some step) :
    moves (op :: ops) (answer :: answers) = (op, step) :: moves ops answers := by
  rw [moves, List.zip_cons_cons, List.filterMap_cons, h]
  rfl

end Operation

/-! ## Walks -/

namespace Story

/-- The story has the move among the ways out of the room that it leaves, or the reader
gives up. -/
inductive Allows (story : Story) : Operation → Step → Prop where
  /-- nothing but an ending leads out of the room -/
  | ending {id : Text} {r : Room} {outcome : Outcome} (room : story.find? id = some r)
      (alone : r.transitions = [.ending outcome]) :
      Allows story .advance ⟨id, none, some outcome, true⟩
  /-- all weights of the room are numbers, and that of the choice is not zero -/
  | lot {id : Text} {r : Room} {c : Choice} {w : Nat} (room : story.find? id = some r)
      (way : .choice c ∈ r.transitions) (weight : c.weight = .ok (some w)) (pos : 1 ≤ w)
      (weights : ∀ d, .choice d ∈ r.transitions → d.isWeighted = true →
        ∃ n, d.weight = .ok (some n)) :
      Allows story .advance ⟨id, some c.target, none, true⟩
  /-- the choice has no weight -/
  | pick {id : Text} {r : Room} {c : Choice} {index : Int} (room : story.find? id = some r)
      (way : .choice c ∈ r.transitions) (plain : c.isWeighted = false) :
      Allows story (.choose index) ⟨id, some c.target, none, false⟩
  /-- the reader gives up -/
  | quit (id : Text) : Allows story .quit ⟨id, none, some .failure, false⟩

/-- Moves lead from one position to another, each from the room that the one before it
has entered. -/
inductive Walk (story : Story) : Position → List (Operation × Step) → Position → Prop where
  /-- without a move the position stays -/
  | stay (p : Position) : Walk story p [] p
  /-- a move is made, and the walk goes on where it leads -/
  | go {op : Operation} {step : Step} {next last : Position} {rest : List (Operation × Step)}
      (allowed : story.Allows op step) (landing : step.landing? = some next)
      (onward : Walk story next rest last) :
      Walk story (.active step.origin) ((op, step) :: rest) last

variable {story : Story} {op : Operation} {step : Step} {id : Text} {last : Position}
  {moves : List (Operation × Step)}

/-- A move that leads to a room enters it, and does not end the story. -/
theorem Allows.destination?_of_landing (h : story.Allows op step)
    (hlanding : step.landing? = some (.active id)) :
    step.destination? = some id ∧ step.outcome? = none := by
  cases h with
  | ending => cases hlanding
  | quit => cases hlanding
  | lot => exact ⟨by simpa [Step.landing?] using hlanding, rfl⟩
  | pick => exact ⟨by simpa [Step.landing?] using hlanding, rfl⟩

namespace Walk

theorem allows (h : story.Walk (.active id) moves last) :
    ∀ move ∈ moves, story.Allows move.1 move.2 := by
  generalize Position.active id = p at h
  induction h with
  | stay => simp
  | go allowed _ _ ih => exact List.forall_mem_cons.mpr ⟨allowed, ih⟩

theorem origin_of_mem_head? (h : story.Walk (.active id) moves last) :
    ∀ first ∈ moves.head?, first.2.origin = id := by
  cases h with
  | stay => simp
  | go => simp

/-- The second move of a walk leaves the room that the first one has entered. -/
theorem destination?_of_go {second : Operation × Step} {next : Position}
    {rest : List (Operation × Step)} (allowed : story.Allows op step)
    (landing : step.landing? = some next) (onward : story.Walk next (second :: rest) last) :
    step.destination? = some second.2.origin ∧ step.outcome? = none := by
  cases onward with
  | go => exact allowed.destination?_of_landing landing

theorem isChain {p : Position} (h : story.Walk p moves last) :
    moves.IsChain fun a b => a.2.destination? = some b.2.origin := by
  induction h with
  | stay => exact .nil
  | @go op step next last rest allowed landing onward ih =>
    cases rest with
    | nil => exact .singleton _
    | cons second rest =>
      exact .cons_cons (destination?_of_go allowed landing onward).1 ih

theorem outcome?_of_mem_dropLast {p : Position} (h : story.Walk p moves last) :
    ∀ move ∈ moves.dropLast, move.2.outcome? = none := by
  induction h with
  | stay => simp
  | @go op step next last rest allowed landing onward ih =>
    cases rest with
    | nil => simp
    | cons second rest =>
      rw [List.dropLast_cons_cons]
      exact List.forall_mem_cons.mpr ⟨(destination?_of_go allowed landing onward).2, ih⟩

theorem landing?_of_mem_getLast? {p : Position} (h : story.Walk p moves last) :
    ∀ final ∈ moves.getLast?, final.2.landing? = some last := by
  induction h with
  | stay => simp
  | @go op step next last rest allowed landing onward ih =>
    cases rest with
    | nil =>
      cases onward with
      | stay => simpa using landing
    | cons second rest =>
      rw [List.getLast?_cons_cons]
      exact ih

theorem eq_of_nil {p : Position} (h : story.Walk p [] last) : last = p := by
  cases h with
  | stay => rfl

end Walk

end Story

/-! ## Moves of a session as steps of a walk -/

namespace Session

variable {σ : Type} {s next : Session σ} {dice : Dice σ} {op : Operation} {step : Step}

theorem Moves.allows (h : s.Moves dice op step next) : s.story.Allows op step := by
  cases h with
  | ending position room alone => exact .ending room alone
  | lot position room weights entry pos =>
    have hmem := Transition.mem_of_mem_weighted (List.of_mem_zip entry).1
    refine .lot room hmem (Lot.weight_of_mem_zip weights entry) pos ?_
    intro d hd hweighted
    have hd' : d ∈ Transition.weighted _ :=
      List.mem_filter.mpr ⟨Transition.mem_filterMap_choice?.mpr hd, hweighted⟩
    obtain ⟨n, hn⟩ := Lot.exists_mem_zip weights hd'
    exact ⟨n, Lot.weight_of_mem_zip weights hn⟩
  | pick position room nonneg choice =>
    have hmem := List.mem_of_getElem? choice
    refine .pick room (Transition.mem_of_mem_manual hmem) ?_
    simpa using (List.mem_filter.mp hmem).2
  | quit position => exact .quit _

theorem Moves.position_eq (h : s.Moves dice op step next) :
    s.position = .active step.origin := by
  cases h <;> assumption

theorem Moves.landing?_eq (h : s.Moves dice op step next) :
    step.landing? = some next.position := by
  cases h <;> rfl

end Session

namespace Situation

variable {σ : Type} {dice : Dice σ} {m : Markers}

/-- With fair dice the moves of a run lead from where it starts to where it ends. -/
theorem walk_run (hdice : dice.Fair) (s : Situation σ) (ops : List Operation) :
    s.session.story.Walk s.session.position (Operation.moves ops (s.run dice m ops).1)
      (s.run dice m ops).2.session.position := by
  induction ops generalizing s with
  | nil => exact .stay _
  | cons op rest ih =>
    -- the story stays, so that the rest of the run is a walk of the same story
    rw [run_cons]
    have honward := ih (s.perform dice m op).2
    rw [(s.perform_story dice m op).1] at honward
    rcases perform_cases hdice m s op with ⟨step, next, hmoves, hperform⟩ | ⟨hnone, hsame⟩
    · have hstep : Answer.step? (s.perform dice m op).1 = some step :=
        Answer.step?_eq_some_iff.mpr (congrArg Prod.fst hperform)
      have hnext : (s.perform dice m op).2.session = next := by rw [hperform]
      rw [Operation.moves_cons_of_some hstep, hmoves.position_eq]
      rw [hnext] at honward
      exact .go hmoves.allows hmoves.landing?_eq honward
    · rw [hsame] at honward
      rw [Operation.moves_cons_of_none (Answer.step?_eq_none hnone)]
      exact honward

end Situation

/-! ## Rolls -/

/-- The same session with dice that count their rolls. -/
def Session.counting {σ : Type} (s : Session σ) (count : Nat) : Session (σ × Nat) :=
  ⟨s.story, s.source?, s.position, s.luck, count⟩

/-- The same situation with dice that count their rolls. -/
def Situation.counting {σ : Type} (s : Situation σ) (count : Nat) : Situation (σ × Nat) :=
  ⟨s.session.counting count, s.world⟩

/-- How many moves of an answer a lot has decided. -/
def Answer.drawn (answer : Except SaveError Answer) : Nat :=
  (step? answer).toList.countP Step.isDrawn

theorem Answer.drawn_eq_zero {answer : Except SaveError Answer}
    (h : ∀ step, answer ≠ .ok (.moved (some step))) : drawn answer = 0 := by
  rw [drawn, step?_eq_none h]
  rfl

theorem Operation.countP_moves_cons (op : Operation) (answer : Except SaveError Answer)
    (ops : List Operation) (answers : List (Except SaveError Answer)) :
    (moves (op :: ops) (answer :: answers)).countP (fun move => move.2.isDrawn) =
      Answer.drawn answer + (moves ops answers).countP fun move => move.2.isDrawn := by
  cases hstep : Answer.step? answer with
  | none => rw [moves_cons_of_none hstep, Answer.drawn, hstep, Option.toList_none,
      List.countP_nil, Nat.zero_add]
  | some step =>
    rw [moves_cons_of_some hstep, Answer.drawn, hstep, Option.toList_some, List.countP_cons,
      List.countP_singleton, Nat.add_comm]

namespace Session

variable {σ : Type} {dice : Dice σ}

/-- A session that counts the rolls advances as the one that does not, and has rolled once
more if a lot has decided. -/
theorem advance_counting (hdice : dice.Fair) (s : Session σ) (count : Nat) :
    (s.counting count).advance dice.counted =
      ((s.advance dice).1, (s.advance dice).2.counting
        (count + Answer.drawn (Situation.answer .moved (s.advance dice).1))) := by
  have hroom : (s.counting count).room = s.room := rfl
  have hluck : (s.counting count).luck = (s.luck, count) := rfl
  unfold advance
  rw [hroom]
  cases s.room with
  | error e => rfl
  | ok r =>
    cases hending : Transition.ending? r.transitions with
    | some outcome =>
      simp only [hending]
      rfl
    | none =>
      simp only [hending]
      rw [hluck, Lot.draw_counted hdice]
      rcases Lot.draw dice r.transitions s.luck with ⟨result, luck⟩
      cases result with
      | error e => rfl
      | ok target? =>
        cases target? with
        | some target => rfl
        | none =>
          simp only
          split <;> rfl

theorem choose_counting (s : Session σ) (index : Int) (count : Nat) :
    (s.counting count).choose index =
      ((s.choose index).1, (s.choose index).2.counting
        (count + Answer.drawn (Situation.answer (.moved ∘ some) (s.choose index).1))) := by
  have hroom : (s.counting count).room = s.room := rfl
  unfold choose
  rw [hroom]
  cases s.room with
  | error e => rfl
  | ok r =>
    simp only
    split <;> rfl

theorem quit_counting (s : Session σ) (count : Nat) :
    (s.counting count).quit =
      (s.quit.1, s.quit.2.counting
        (count + Answer.drawn (Situation.answer (.moved ∘ some) s.quit.1))) := by
  have hid : (s.counting count).roomId = s.roomId := rfl
  unfold quit
  rw [hid]
  cases s.roomId <;> rfl

end Session

namespace Situation

variable {σ : Type} {dice : Dice σ} {m : Markers}

/-- Fair dice are rolled once for a move that a lot decides, and for nothing else. -/
theorem perform_counting (hdice : dice.Fair) (s : Situation σ) (op : Operation) (count : Nat) :
    (s.counting count).perform dice.counted m op =
      ((s.perform dice m op).1,
        (s.perform dice m op).2.counting (count + Answer.drawn (s.perform dice m op).1)) := by
  cases op with
  | view =>
    have hdrawn : Answer.drawn (answer .view s.session.view) = 0 :=
      Answer.drawn_eq_zero (answer_ne_moved (by simp) _)
    rw [perform, perform, hdrawn]
    rfl
  | room =>
    have hdrawn : Answer.drawn (answer .room s.session.room) = 0 :=
      Answer.drawn_eq_zero (answer_ne_moved (by simp) _)
    rw [perform, perform, hdrawn]
    rfl
  | roomId =>
    have hdrawn : Answer.drawn (answer .roomId s.session.roomId) = 0 :=
      Answer.drawn_eq_zero (answer_ne_moved (by simp) _)
    rw [perform, perform, hdrawn]
    rfl
  | advance =>
    rw [perform, perform, counting, Session.advance_counting hdice]
    rfl
  | choose index =>
    rw [perform, perform, counting, Session.choose_counting]
    rfl
  | quit =>
    rw [perform, perform, counting, Session.quit_counting]
    rfl
  | bookmark path =>
    have hsave : (s.session.counting count).saveBookmark m s.world path =
        s.session.saveBookmark m s.world path := rfl
    have hdrawn := Answer.drawn_eq_zero (saved_ne_moved (s.session.saveBookmark m s.world path).1)
    rw [perform, perform, counting, hsave, hdrawn]
    rfl

theorem run_counting (hdice : dice.Fair) (s : Situation σ) (ops : List Operation) (count : Nat) :
    (s.counting count).run dice.counted m ops =
      ((s.run dice m ops).1, (s.run dice m ops).2.counting
        (count + (Operation.moves ops (s.run dice m ops).1).countP fun move => move.2.isDrawn)) := by
  induction ops generalizing s count with
  | nil => rfl
  | cons op rest ih =>
    rw [run_cons, run_cons, perform_counting hdice, ih, Operation.countP_moves_cons, Nat.add_assoc]

/-- A run with fair dice is a walk of the story from its start: each move leaves the room
that the one before it has entered and is among the ways out of it, only the last one
can have an outcome, and the run ends where the last one leads.  The dice are rolled once
for each move that a lot decides, and for nothing else. -/
theorem run_walks (hdice : dice.Fair) {story : Story} {source? start? : Option Text} {luck : σ}
    {world : World} {ops : List Operation} {answers : List (Except SaveError Answer)}
    {last : Situation σ}
    (hrun : run dice m ⟨.start story source? start? luck, world⟩ ops = (answers, last)) :
    (∀ first ∈ (Operation.moves ops answers).head?, first.2.origin = story.startId start?) ∧
      (Operation.moves ops answers).IsChain (fun a b => a.2.destination? = some b.2.origin) ∧
      (∀ move ∈ Operation.moves ops answers, story.Allows move.1 move.2) ∧
      (∀ move ∈ (Operation.moves ops answers).dropLast, move.2.outcome? = none) ∧
      (∀ final ∈ (Operation.moves ops answers).getLast?,
        final.2.landing? = some last.session.position) ∧
      (Operation.moves ops answers = [] →
        last.session.position = .active (story.startId start?)) ∧
      run dice.counted m ⟨.start story source? start? (luck, 0), world⟩ ops =
        (answers, last.counting
          ((Operation.moves ops answers).countP fun move => move.2.isDrawn)) := by
  have hwalk := walk_run (m := m) hdice ⟨.start story source? start? luck, world⟩ ops
  have hcount := run_counting (m := m) hdice ⟨.start story source? start? luck, world⟩ ops 0
  rw [hrun] at hwalk hcount
  rw [Nat.zero_add] at hcount
  refine ⟨hwalk.origin_of_mem_head?, hwalk.isChain, hwalk.allows, hwalk.outcome?_of_mem_dropLast,
    hwalk.landing?_of_mem_getLast?, ?_, hcount⟩
  intro hnil
  rw [hnil] at hwalk
  exact hwalk.eq_of_nil

/-- Of what is done here, four operations answer moves, and the dice are rolled for two
of them. -/
theorem run_walks_crossroads :
    let ops : List Operation :=
      [.advance, .choose 0, .view, .advance, .choose 3, .advance, .advance, .advance]
    let moves : List (Operation × Step) :=
      [(.choose 0, ⟨"gate".toList, some "maze".toList, none, false⟩),
        (.advance, ⟨"maze".toList, some "maze".toList, none, true⟩),
        (.advance, ⟨"maze".toList, some "garden".toList, none, true⟩),
        (.advance, ⟨"garden".toList, none, some .success, true⟩)]
    let played := Crossroads.outset.run .dealt .standard ops
    Operation.moves ops played.1 = moves ∧
      moves.IsChain (fun a b => a.2.destination? = some b.2.origin) ∧
      (∀ move ∈ moves, Crossroads.story.Allows move.1 move.2) ∧
      played.2.session.position = .finished .success ∧
      run Dice.dealt.counted .standard (Crossroads.outset.counting 0) ops =
        (played.1, played.2.counting 2) := by
  intro ops moves played
  have hmoves : Operation.moves ops played.1 = moves := by decide +kernel
  have hrun : Crossroads.outset.run .dealt .standard ops = (played.1, played.2) := rfl
  obtain ⟨-, hchain, hallows, -, hfinal, -, hcounted⟩ := run_walks Dice.dealt_fair hrun
  rw [hmoves] at hchain hallows hfinal hcounted
  have hlanding : some (.finished .success) = some played.2.session.position := hfinal _ rfl
  exact ⟨hmoves, hchain, hallows, (Option.some.inj hlanding).symm, hcounted⟩

end Situation

end Gamebook
