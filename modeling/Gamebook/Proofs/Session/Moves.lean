import Gamebook.Proofs.Session.Run
set_option autoImplicit false

/-!
# Moves of a session

What an operation can do to a session whose dice are fair is said here once: it moves
the session in one of four ways and answers the move, or it answers no move and leaves
the position and the dice as they are.  Everything about whole runs is proved from these
moves.
-/

namespace Gamebook

/-! ## Rooms -/

theorem Transition.ending?_eq_some_iff {ts : List Transition} {outcome : Outcome} :
    ending? ts = some outcome ↔ ts = [.ending outcome] := by
  unfold ending?
  split
  · rename_i found
    simp
  · rename_i hnot
    simp only [reduceCtorEq, false_iff]
    exact fun h => hnot outcome h

theorem Story.id_of_find? {story : Story} {id : Text} {r : Room} (h : story.find? id = some r) :
    r.id = id := by
  simpa using List.find?_some h

/-! ## Single moves -/

namespace Session

variable {σ : Type} {s : Session σ} {dice : Dice σ}

/-- An operation takes a session to the next by a move. -/
inductive Moves (dice : Dice σ) (s : Session σ) : Operation → Step → Session σ → Prop where
  /-- nothing but an ending leads out of the room -/
  | ending {id : Text} {r : Room} {outcome : Outcome} (position : s.position = .active id)
      (room : s.story.find? id = some r) (alone : r.transitions = [.ending outcome]) :
      Moves dice s .advance ⟨id, none, some outcome, true⟩ (s.conclude outcome)
  /-- one roll decides among weighted choices, for one whose weight is not zero -/
  | lot {id : Text} {r : Room} {ws : List Nat} {c : Choice} {w : Nat}
      (position : s.position = .active id) (room : s.story.find? id = some r)
      (weights : Lot.weights? (Transition.weighted r.transitions) = .ok (some ws))
      (entry : (c, w) ∈ (Transition.weighted r.transitions).zip ws) (pos : 0 < w) :
      Moves dice s .advance ⟨id, some c.target, none, true⟩
        ({ s with luck := (dice.roll (totalWeight ws) s.luck).2 }.enter c.target)
  /-- the reader makes a choice -/
  | pick {id : Text} {r : Room} {index : Int} {c : Choice} (position : s.position = .active id)
      (room : s.story.find? id = some r) (nonneg : 0 ≤ index)
      (choice : (Transition.manual r.transitions)[index.toNat]? = some c) :
      Moves dice s (.choose index) ⟨id, some c.target, none, false⟩ (s.enter c.target)
  /-- the reader gives up -/
  | quit {id : Text} (position : s.position = .active id) :
      Moves dice s .quit ⟨id, none, some .failure, false⟩ (s.conclude .failure)

/-- Where no lot falls, the session does not move on by itself. -/
theorem advance_of_no_target {r : Room} {result : Except Overlong (Option Text)}
    (hroom : s.room = .ok r) (hending : Transition.ending? r.transitions = none)
    (hdraw : Lot.draw dice r.transitions s.luck = (result, s.luck))
    (hnone : ∀ target, result ≠ .ok (some target)) :
    (∀ step, (s.advance dice).1 ≠ .ok (some step)) ∧ (s.advance dice).2 = s := by
  cases result with
  | error e =>
    have hadvance : s.advance dice = (.error (.fault (.overlong e)), s) := by
      simp only [advance, hroom, hending, hdraw]
    rw [hadvance]
    exact ⟨by simp, rfl⟩
  | ok target? =>
    cases target? with
    | some target => exact absurd rfl (hnone target)
    | none =>
      by_cases hmanual : Transition.manual r.transitions = []
      · have hadvance : s.advance dice = (.error (.deadEnd r.id), s) := by
          simp only [advance, hroom, hending, hdraw, if_pos hmanual]
        rw [hadvance]
        exact ⟨by simp, rfl⟩
      · have hadvance : s.advance dice = (.ok none, s) := by
          simp only [advance, hroom, hending, hdraw, if_neg hmanual]
        rw [hadvance]
        exact ⟨by simp, rfl⟩

theorem advance_cases (hdice : dice.Fair) (s : Session σ) :
    (∃ step next, s.Moves dice .advance step next ∧ s.advance dice = (.ok (some step), next)) ∨
      (∀ step, (s.advance dice).1 ≠ .ok (some step)) ∧ (s.advance dice).2 = s := by
  cases hroom : s.room with
  | error e =>
    have hadvance : s.advance dice = (.error e, s) := by rw [advance, hroom]
    rw [hadvance]
    exact .inr ⟨by simp, rfl⟩
  | ok r =>
    obtain ⟨id, hposition, hfind⟩ := find?_of_room hroom
    have hid : r.id = id := Story.id_of_find? hfind
    cases hending : Transition.ending? r.transitions with
    | some outcome =>
      have halone := Transition.ending?_eq_some_iff.mp hending
      refine .inl ⟨_, _, .ending hposition hfind halone, ?_⟩
      simp only [advance, hroom, hending, hid]
    | none =>
      rcases Lot.draw_cases hdice r.transitions s.luck with
        ⟨hnone, hluck⟩ | ⟨ws, c, w, hws, hentry, hpos, hdraw⟩
      · have hdraw : Lot.draw dice r.transitions s.luck =
            ((Lot.draw dice r.transitions s.luck).1, s.luck) := Prod.ext rfl hluck
        exact .inr (advance_of_no_target hroom hending hdraw hnone)
      · refine .inl ⟨_, _, .lot hposition hfind hws hentry hpos, ?_⟩
        simp only [advance, hroom, hending, hdraw, hid]

theorem choose_cases (dice : Dice σ) (s : Session σ) (index : Int) :
    (∃ step next, s.Moves dice (.choose index) step next ∧ s.choose index = (.ok step, next)) ∨
      ∃ e, s.choose index = (.error e, s) := by
  cases hroom : s.room with
  | error e => exact .inr ⟨e, by rw [choose, hroom]⟩
  | ok r =>
    obtain ⟨id, hposition, hfind⟩ := find?_of_room hroom
    have hid : r.id = id := Story.id_of_find? hfind
    by_cases hindex : index < 0
    · exact .inr ⟨.ofIndex index r.id, by simp only [choose, hroom, if_pos hindex]⟩
    · cases hchoice : (Transition.manual r.transitions)[index.toNat]? with
      | none =>
        exact .inr ⟨.ofIndex index r.id, by
          simp only [choose, hroom, if_neg hindex, hchoice]⟩
      | some c =>
        refine .inl ⟨_, _, .pick hposition hfind (Int.not_lt.mp hindex) hchoice, ?_⟩
        simp only [choose, hroom, if_neg hindex, hchoice, hid]

theorem quit_cases (dice : Dice σ) (s : Session σ) :
    (∃ step next, s.Moves dice .quit step next ∧ s.quit = (.ok step, next)) ∨
      ∃ e, s.quit = (.error e, s) := by
  cases hid : s.roomId with
  | error e => exact .inr ⟨e, by rw [quit, hid]⟩
  | ok id => exact .inl ⟨_, _, .quit (position_of_roomId hid), by simp only [quit, hid]⟩

/-! ## Whatever dice fall -/

variable {r : Room}

theorem room_eq_error {e : SessionError} {id : Text} (hposition : s.position = .active id)
    (h : s.room = .error e) : e = .unknownRoom id := by
  rw [room, roomId, hposition] at h
  simp only at h
  split at h
  · exact (Except.error.inj h).symm
  · cases h

theorem position_of_room (h : s.room = .ok r) : s.position = .active r.id := by
  obtain ⟨id, hactive, hfind⟩ := find?_of_room h
  rw [hactive, Story.id_of_find? hfind]

/-- Whatever dice fall, an advance in a room makes a move, or the session stays but for the
dice: the reader has to choose, nothing leads out of the room, or a weight is too long. -/
theorem advance_of_room (dice : Dice σ) (hroom : s.room = .ok r) :
    (∃ step next, s.advance dice = (.ok (some step), next)) ∨
      ∃ luck, s.advance dice = (.ok none, { s with luck := luck }) ∨
        s.advance dice = (.error (.deadEnd r.id), { s with luck := luck }) ∨
        ∃ n, s.advance dice = (.error (.fault (.overlong n)), { s with luck := luck }) := by
  cases hending : Transition.ending? r.transitions with
  | some outcome =>
    have hadvance : s.advance dice =
        (.ok (some ⟨r.id, none, some outcome, true⟩), s.conclude outcome) := by
      simp only [advance, hroom, hending]
    exact .inl ⟨_, _, hadvance⟩
  | none =>
    rcases hdraw : Lot.draw dice r.transitions s.luck with ⟨result, luck⟩
    cases result with
    | error n =>
      exact .inr ⟨luck, .inr (.inr ⟨n, by simp only [advance, hroom, hending, hdraw]⟩)⟩
    | ok target? =>
      cases target? with
      | some target =>
        have hadvance : s.advance dice = (.ok (some ⟨r.id, some target, none, true⟩),
            { s with luck := luck }.enter target) := by
          simp only [advance, hroom, hending, hdraw]
        exact .inl ⟨_, _, hadvance⟩
      | none =>
        by_cases hmanual : Transition.manual r.transitions = []
        · exact .inr ⟨luck, .inr (.inl (by
            simp only [advance, hroom, hending, hdraw, if_pos hmanual]))⟩
        · exact .inr ⟨luck, .inl (by
            simp only [advance, hroom, hending, hdraw, if_neg hmanual])⟩

theorem choose_of_getElem? {index : Nat} {c : Choice} (hroom : s.room = .ok r)
    (hchoice : (Transition.manual r.transitions)[index]? = some c) :
    s.choose index = (.ok ⟨r.id, some c.target, none, false⟩, s.enter c.target) := by
  have hnonneg : ¬ (index : Int) < 0 := Int.not_lt.mpr (Int.natCast_nonneg index)
  simp only [choose, hroom, if_neg hnonneg, Int.toNat_natCast, hchoice]

end Session

/-! ## Operations in the world -/

namespace Situation

variable {σ : Type} {dice : Dice σ}

/-- An operation tells of a move only if its answers have the form of moves. -/
theorem answer_ne_moved {α : Type} {form : α → Answer} (hform : ∀ a step?, form a ≠ .moved step?)
    (result : Except SessionError α) (step : Step) :
    answer form result ≠ .ok (.moved (some step)) := by
  intro h
  cases result with
  | error e => cases h
  | ok a => exact hform a (some step) (Except.ok.inj h)

theorem saved_ne_moved (result : Except SaveError Bookmark) (step : Step) :
    result.map Answer.saved ≠ .ok (.moved (some step)) := by
  intro h
  cases result with
  | error e => cases h
  | ok b => cases h

/-- With fair dice an operation moves the session and answers the move, or it answers no
move and the session stays as it is. -/
theorem perform_cases (hdice : dice.Fair) (m : Markers) (s : Situation σ) (op : Operation) :
    (∃ step next, s.session.Moves dice op step next ∧
      s.perform dice m op = (.ok (.moved (some step)), { s with session := next })) ∨
      (∀ step, (s.perform dice m op).1 ≠ .ok (.moved (some step))) ∧
        (s.perform dice m op).2.session = s.session := by
  cases op with
  | advance =>
    rcases s.session.advance_cases hdice with ⟨step, next, hmoves, hadvance⟩ | ⟨hnone, hsame⟩
    · exact .inl ⟨step, next, hmoves, by rw [perform, hadvance]; rfl⟩
    · refine .inr ⟨fun step h => ?_, hsame⟩
      unfold perform at h
      cases hresult : (s.session.advance dice).1 with
      | error e => simp [hresult, answer] at h
      | ok step? =>
        obtain rfl : step? = some step := by simpa [hresult, answer] using h
        exact hnone step hresult
  | choose index =>
    rcases s.session.choose_cases dice index with ⟨step, next, hmoves, hchoose⟩ | ⟨e, hchoose⟩
    · exact .inl ⟨step, next, hmoves, by rw [perform, hchoose]; rfl⟩
    · rw [perform, hchoose]
      exact .inr ⟨by simp [answer], rfl⟩
  | quit =>
    rcases s.session.quit_cases dice with ⟨step, next, hmoves, hquit⟩ | ⟨e, hquit⟩
    · exact .inl ⟨step, next, hmoves, by rw [perform, hquit]; rfl⟩
    · rw [perform, hquit]
      exact .inr ⟨by simp [answer], rfl⟩
  | view => exact .inr ⟨answer_ne_moved (by simp) _, rfl⟩
  | room => exact .inr ⟨answer_ne_moved (by simp) _, rfl⟩
  | roomId => exact .inr ⟨answer_ne_moved (by simp) _, rfl⟩
  | bookmark path => exact .inr ⟨saved_ne_moved _, rfl⟩

end Situation

/-! ## A story with a lot in it -/

namespace Crossroads

/-- From the gate the reader enters the maze, where a lot leads on, or leaves for a shed
that is not there. -/
def story : Story where
  rooms := [
    ⟨"gate".toList, [], [],
      [.choice ⟨"Enter".toList, "maze".toList, none⟩,
        .choice ⟨"Leave".toList, "shed".toList, none⟩]⟩,
    ⟨"maze".toList, [], [],
      [.choice ⟨"Left".toList, "maze".toList, some "2".toList⟩,
        .choice ⟨"Right".toList, "garden".toList, some "1".toList⟩]⟩,
    ⟨"garden".toList, [], [], [.ending .success]⟩]
  rooms_ne_nil := List.cons_ne_nil _ _

/-- A play in an empty world, with dice that lead left and then right. -/
def outset : Situation (List Nat) where
  session := .start story (some "story".toList) none [1, 5]
  world := ⟨{ entries := [] }, [], default, [], default, none⟩

end Crossroads

end Gamebook
