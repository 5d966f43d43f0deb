import Gamebook.Proofs.Bookmark.Writing
import Gamebook.Proofs.Session.Run
set_option autoImplicit false

/-!
# Stories that can be played

A story can be played when something leads out of each of its rooms, and every choice
leads to a room of the story.  A session of such a story that stands in one of its
rooms never gets stuck: this is kept by every operation, whatever the dice do as long
as they are fair.
-/

namespace Gamebook

/-! ## Playable stories -/

/-- Something leads out of the room: an ending, or weights that are numbers and a
lot that falls or a choice for the reader. -/
def Room.CanLeave (r : Room) : Prop :=
  (∃ outcome, Transition.ending? r.transitions = some outcome) ∨
    ∃ ws, Lot.weights? (Transition.weighted r.transitions) = .ok (some ws) ∧
      (1 ≤ totalWeight ws ∨ Transition.manual r.transitions ≠ [])

/-- Something leads out of each room, and every choice leads to a room. -/
structure Story.Playable (s : Story) : Prop where
  canLeave : ∀ r ∈ s.rooms, r.CanLeave
  targets : ∀ r ∈ s.rooms, ∀ c, .choice c ∈ r.transitions → c.target ∈ s.ids

theorem Story.exists_find? {s : Story} {id : Text} (h : id ∈ s.ids) :
    ∃ r ∈ s.rooms, s.find? id = some r := by
  obtain ⟨r, hr, hid⟩ := List.mem_map.mp h
  cases hfind : s.find? id with
  | none => exact absurd hid (by simpa using List.find?_eq_none.mp hfind r hr)
  | some r' => exact ⟨r', List.mem_of_find?_eq_some hfind, rfl⟩

/-- The error says that there is no room to stand in or no way out of it. -/
def SessionError.IsStuck : SessionError → Prop
  | .unknownRoom _ | .deadEnd _ => True
  | _ => False

/-! ## Sound sessions -/

namespace Session

variable {σ : Type} {s : Session σ} {dice : Dice σ}

/-- The story can be played, and the session stands in one of its rooms until it
ends. -/
structure Sound (s : Session σ) : Prop where
  playable : s.story.Playable
  stands : ∀ id, s.position = .active id → id ∈ s.story.ids

/-- Each move of a sound session goes to a room of the story or ends it. -/
theorem Sound.goes {next : Session σ} (h : s.Sound) (hstory : next.story = s.story)
    (hgoes : s.story.Goes s.position next.position) : next.Sound := by
  refine ⟨hstory ▸ h.playable, ?_⟩
  rw [hstory]
  exact hgoes.stands h.stands h.playable.targets

/-- A sound session has ended, or it stands in a room of the story. -/
theorem Sound.room_cases (h : s.Sound) :
    ((∃ outcome, s.position = .finished outcome) ∧ s.room = .error .alreadyEnded) ∨
      (∃ id, s.position = .active id) ∧ ∃ r ∈ s.story.rooms, s.room = .ok r := by
  cases hposition : s.position with
  | finished outcome =>
    refine .inl ⟨⟨outcome, rfl⟩, ?_⟩
    rw [room, roomId, hposition]
  | active id =>
    obtain ⟨r, hr, hfind⟩ := Story.exists_find? (h.stands id hposition)
    exact .inr ⟨⟨id, rfl⟩, r, hr, room_of_find? hposition hfind⟩

theorem Sound.not_isStuck_room (h : s.Sound) {e : SessionError} (he : s.room = .error e) :
    ¬ e.IsStuck := by
  rcases h.room_cases with ⟨-, hroom⟩ | ⟨-, r, -, hroom⟩
  · obtain rfl : SessionError.alreadyEnded = e := Except.error.inj (hroom.symm.trans he)
    exact id
  · cases hroom.symm.trans he

/-- With fair dice a sound session that has not ended moves on, or it stays as it is
and leaves the choice to the reader. -/
theorem Sound.advance_cases (h : s.Sound) (hdice : dice.Fair) {r : Room} (hroom : s.room = .ok r)
    (hr : r ∈ s.story.rooms) :
    (∃ step, (s.advance dice).1 = .ok (some step)) ∨
      s.advance dice = (.ok none, s) ∧ Transition.manual r.transitions ≠ [] := by
  unfold advance
  simp only [hroom]
  rcases h.playable.canLeave r hr with ⟨outcome, hending⟩ | ⟨ws, hws, hway⟩
  · simp only [hending]
    exact .inl ⟨_, rfl⟩
  · cases hending : Transition.ending? r.transitions with
    | some outcome => exact .inl ⟨_, rfl⟩
    | none =>
      by_cases htotal : 1 ≤ totalWeight ws
      · obtain ⟨c, w, -, -, hdraw⟩ := Lot.exists_draw hdice s.luck hws htotal
        simp only [hdraw]
        exact .inl ⟨_, rfl⟩
      · have hmanual := hway.resolve_left htotal
        rw [Lot.draw_of_total_eq_zero s.luck hws (Nat.lt_of_not_le htotal)]
        simp only [if_neg hmanual]
        exact .inr ⟨trivial, hmanual⟩

theorem Sound.not_isStuck_advance (h : s.Sound) (hdice : dice.Fair) {e : SessionError}
    (he : (s.advance dice).1 = .error e) : ¬ e.IsStuck := by
  rcases h.room_cases with ⟨-, hroom⟩ | ⟨-, r, hr, hroom⟩
  · rw [advance, hroom] at he
    cases he
    exact id
  · rcases h.advance_cases hdice hroom hr with ⟨step, hstep⟩ | ⟨hnone, -⟩
    · cases hstep.symm.trans he
    · rw [hnone] at he
      cases he

/-- With fair dice nothing that a sound session fails with says that it is stuck. -/
theorem Sound.not_isStuck (h : s.Sound) (hdice : dice.Fair) {e : SessionError}
    {op : Operation} (he : s.Fails dice op e) : ¬ e.IsStuck := by
  cases he with
  | ended => exact id
  | unknown op room => exact h.not_isStuck_room room
  | noChoice => exact id
  | unwritten => exact id
  | advance failed => exact h.not_isStuck_advance hdice failed

theorem not_isStuck_bookmark {e : SessionError} (he : s.bookmark = .error e) : ¬ e.IsStuck := by
  unfold bookmark at he
  split at he
  · cases he
    exact id
  · split at he
    · rename_i e' hid
      cases he
      rw [eq_alreadyEnded_of_roomId hid]
      exact id
    · cases he

/-- Saving says nothing of the session that its bookmark does not say. -/
theorem bookmark_of_saveBookmark_error {m : Markers} {w : World} {path : Text} {e : SessionError}
    (h : (s.saveBookmark m w path).1 = .error (.session e)) : s.bookmark = .error e := by
  unfold saveBookmark at h
  split at h
  · rename_i e' hbookmark
    cases h
    exact hbookmark
  · split at h
    · rename_i e' after hsave
      cases h
      exact absurd (congrArg Prod.fst hsave) (World.saveBookmark_ne_session _ _ _ _ _)
    · cases h

/-- When it is the reader who has to choose, there is a choice to make. -/
theorem exists_choose_zero {r : Room} (hroom : s.room = .ok r)
    (hmanual : Transition.manual r.transitions ≠ []) :
    ∃ view step, s.view = .ok view ∧ view.choices ≠ [] ∧ (s.choose 0).1 = .ok step := by
  obtain ⟨c, rest, hcons⟩ := List.exists_cons_of_ne_nil hmanual
  refine ⟨r.view, ⟨r.id, some c.target, none, false⟩, ?_, ?_, ?_⟩
  · rw [view, hroom]
    rfl
  · simp [Room.view, hcons]
  · unfold choose
    simp [hroom, hcons]

end Session

/-! ## Sound situations -/

namespace Situation

variable {σ : Type} {dice : Dice σ}

/-- No operation on a sound session gets stuck. -/
theorem not_isStuck_perform (hdice : dice.Fair) (m : Markers) (s : Situation σ) (op : Operation)
    (h : s.session.Sound) {e : SessionError} (he : (s.perform dice m op).1 = .error (.session e)) :
    ¬ e.IsStuck := by
  by_cases hop : ∀ path, op ≠ .bookmark path
  · obtain ⟨e', heq, hfails⟩ := fails_of_perform hop he
    cases heq
    exact h.not_isStuck hdice hfails
  · obtain ⟨path, rfl⟩ : ∃ path, op = .bookmark path := by simpa using hop
    have hsave : (s.session.saveBookmark m s.world path).1 = .error (.session e) := by
      unfold perform at he
      cases hresult : (s.session.saveBookmark m s.world path).1 with
      | ok b =>
        simp only [hresult] at he
        cases he
      | error e' =>
        simp only [hresult] at he
        cases he
        rfl
    exact Session.not_isStuck_bookmark (Session.bookmark_of_saveBookmark_error hsave)

theorem sound_perform (m : Markers) (s : Situation σ) (op : Operation) (h : s.session.Sound) :
    (s.perform dice m op).2.session.Sound :=
  h.goes (s.perform_story dice m op).1 (s.goes_perform dice m op)

/-- No run of operations on a sound session gets stuck, and the session stays sound. -/
theorem run_of_sound (hdice : dice.Fair) (m : Markers) {s : Situation σ} (h : s.session.Sound)
    (ops : List Operation) :
    (∀ e, .error (.session e) ∈ (s.run dice m ops).1 → ¬ e.IsStuck) ∧
      (s.run dice m ops).2.session.Sound := by
  obtain ⟨hanswers, hsound⟩ := run_induction dice m (I := fun t => t.session.Sound)
    (A := fun answer => ∀ e, answer = .error (.session e) → ¬ e.IsStuck)
    (fun t op ht => ⟨fun e he => not_isStuck_perform hdice m t op ht he, sound_perform m t op ht⟩)
    h ops
  exact ⟨fun e he => hanswers _ he e rfl, hsound⟩

end Situation

end Gamebook
