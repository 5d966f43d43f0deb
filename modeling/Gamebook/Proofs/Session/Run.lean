import Gamebook.Proofs.Lot
import Gamebook.Session.Operation
import Mathlib.Algebra.Group.Nat.Defs
set_option autoImplicit false

/-!
# Runs of a session

Whatever is done with a session, its story and its path stay, and it stays where it
is, follows a choice of its room, or ends.  A property that each operation keeps is
kept by every run.
-/

namespace Gamebook

/-! ## The ways out of a room -/

/-- The choices among transitions are the transitions that are choices. -/
theorem Transition.mem_filterMap_choice? {ts : List Transition} {c : Choice} :
    c ∈ ts.filterMap choice? ↔ .choice c ∈ ts := by
  rw [List.mem_filterMap]
  constructor
  · intro h
    obtain ⟨t, ht, hc⟩ := h
    cases t with
    | ending outcome => cases hc
    | choice c' =>
      obtain rfl : c' = c := Option.some.inj hc
      exact ht
  · intro h
    exact ⟨.choice c, h, rfl⟩

theorem Transition.mem_of_mem_weighted {ts : List Transition} {c : Choice}
    (h : c ∈ weighted ts) : .choice c ∈ ts :=
  mem_filterMap_choice?.mp (List.mem_filter.mp h).1

theorem Transition.mem_of_mem_manual {ts : List Transition} {c : Choice}
    (h : c ∈ manual ts) : .choice c ∈ ts :=
  mem_filterMap_choice?.mp (List.mem_filter.mp h).1

/-! ## Numbers that are refused -/

theorem Overlong.ten_le_pow_limit : 10 ≤ 10 ^ Overlong.limit :=
  Nat.le_self_pow (by decide : Overlong.limit ≠ 0) 10

theorem isUnwritten_iff {n : Int} : isUnwritten n = true ↔ 10 ^ Overlong.limit ≤ n.natAbs := by
  have hpow (digits : Nat) : Nat.pow 10 digits = 10 ^ digits := rfl
  rw [isUnwritten, decide_eq_true_iff, hpow]

namespace SessionError

variable {index : Int}

/-- The message about a number that is refused tells the number. -/
theorem ofIndex_of_lt (h : index.natAbs < 10 ^ Overlong.limit) (room : Text) :
    ofIndex index room = .invalidChoice index room := by
  rw [ofIndex, if_neg fun hlong => Nat.not_le_of_lt h (isUnwritten_iff.mp hlong)]

/-- A number that is too long to be told is refused with a fault. -/
theorem ofIndex_of_le (h : 10 ^ Overlong.limit ≤ index.natAbs) (room : Text) :
    ofIndex index room = .fault .unwritten := by
  rw [ofIndex, if_pos (isUnwritten_iff.mpr h)]

end SessionError

/-! ## Positions -/

/-- One operation takes a session of a story from a position to another. -/
inductive Story.Goes (story : Story) : Position → Position → Prop where
  /-- the position stays -/
  | stay (p : Position) : Story.Goes story p p
  /-- a choice of the room is followed -/
  | follow {id : Text} {r : Room} {c : Choice} (room : story.find? id = some r)
      (way : .choice c ∈ r.transitions) : Story.Goes story (.active id) (.active c.target)
  /-- the story ends -/
  | conclude (id : Text) (outcome : Outcome) : Story.Goes story (.active id) (.finished outcome)

/-- A property of the room one stands in and of the targets of all choices is kept. -/
theorem Story.Goes.stands {story : Story} {Q : Text → Prop} {p next : Position}
    (h : story.Goes p next) (hp : ∀ id, p = .active id → Q id)
    (htargets : ∀ r ∈ story.rooms, ∀ c, .choice c ∈ r.transitions → Q c.target) :
    ∀ id, next = .active id → Q id := by
  intro id hid
  cases h with
  | stay => exact hp id hid
  | follow room way =>
    cases hid
    exact htargets _ (List.mem_of_find?_eq_some room) _ way
  | conclude => cases hid

namespace Session

variable {σ : Type} {s : Session σ}

theorem position_of_roomId {id : Text} (h : s.roomId = .ok id) : s.position = .active id := by
  unfold roomId at h
  split at h
  · rename_i id' hid
    rw [hid, Except.ok.inj h]
  · simp at h

theorem find?_of_room {r : Room} (h : s.room = .ok r) :
    ∃ id, s.position = .active id ∧ s.story.find? id = some r := by
  unfold room at h
  split at h
  · simp at h
  · rename_i id hid
    split at h
    · simp at h
    · rename_i r' hfind
      exact ⟨id, position_of_roomId hid, by rw [hfind, Except.ok.inj h]⟩

theorem room_of_find? {id : Text} {r : Room} (h : s.position = .active id)
    (hfind : s.story.find? id = some r) : s.room = .ok r := by
  rw [room, roomId, h]
  simp only [hfind]

theorem goes_advance (dice : Dice σ) (s : Session σ) :
    s.story.Goes s.position (s.advance dice).2.position := by
  unfold advance
  split
  · exact .stay _
  · rename_i r hroom
    obtain ⟨id, hposition, hfind⟩ := find?_of_room hroom
    split
    · rename_i outcome _
      rw [hposition]
      exact .conclude id outcome
    · split
      · exact .stay _
      · rename_i target luck hdraw
        obtain ⟨c, hc, rfl⟩ := Lot.mem_weighted_of_draw (congrArg Prod.fst hdraw)
        rw [hposition]
        exact .follow hfind (Transition.mem_of_mem_weighted hc)
      · split <;> exact .stay _

theorem goes_choose (s : Session σ) (index : Int) :
    s.story.Goes s.position (s.choose index).2.position := by
  unfold choose
  split
  · exact .stay _
  · rename_i r hroom
    obtain ⟨id, hposition, hfind⟩ := find?_of_room hroom
    split
    · exact .stay _
    · rename_i c hc
      have hmem : c ∈ Transition.manual r.transitions := by
        split at hc
        · simp at hc
        · exact List.mem_of_getElem? hc
      rw [hposition]
      exact .follow hfind (Transition.mem_of_mem_manual hmem)

theorem goes_quit (s : Session σ) : s.story.Goes s.position s.quit.2.position := by
  unfold quit
  split
  · exact .stay _
  · rename_i id hid
    rw [position_of_roomId hid]
    exact .conclude id .failure

/-- An operation leaves the story and its path alone. -/
theorem advance_story (dice : Dice σ) (s : Session σ) :
    (s.advance dice).2.story = s.story ∧ (s.advance dice).2.source? = s.source? := by
  unfold advance
  split
  · exact ⟨rfl, rfl⟩
  · split
    · exact ⟨rfl, rfl⟩
    · split
      · exact ⟨rfl, rfl⟩
      · exact ⟨rfl, rfl⟩
      · split <;> exact ⟨rfl, rfl⟩

theorem choose_story (s : Session σ) (index : Int) :
    (s.choose index).2.story = s.story ∧ (s.choose index).2.source? = s.source? := by
  unfold choose
  split
  · exact ⟨rfl, rfl⟩
  · split <;> exact ⟨rfl, rfl⟩

theorem quit_story (s : Session σ) :
    s.quit.2.story = s.story ∧ s.quit.2.source? = s.source? := by
  unfold quit
  split <;> exact ⟨rfl, rfl⟩

/-! ## Errors -/

/-- What an operation of a session can fail with, unless a bookmark is saved. -/
inductive Fails (dice : Dice σ) (s : Session σ) : Operation → SessionError → Prop where
  /-- the story has ended -/
  | ended (op : Operation) : Fails dice s op .alreadyEnded
  /-- the room to stand in is missing -/
  | unknown (op : Operation) {id : Text} (room : s.room = .error (.unknownRoom id)) :
      Fails dice s op (.unknownRoom id)
  /-- the reader has no such choice -/
  | noChoice (index : Int) (id : Text) : Fails dice s (.choose index) (.invalidChoice index id)
  /-- the reader has no such choice, and its number is too long to be told -/
  | unwritten {index : Int} (long : 10 ^ Overlong.limit ≤ index.natAbs) :
      Fails dice s (.choose index) (.fault .unwritten)
  /-- the move that the reader has no say in fails -/
  | advance {e : SessionError} (failed : (s.advance dice).1 = .error e) : Fails dice s .advance e

variable {dice : Dice σ} {op : Operation} {e : SessionError}

theorem eq_alreadyEnded_of_roomId (h : s.roomId = .error e) : e = .alreadyEnded := by
  unfold roomId at h
  split at h
  · cases h
  · exact (Except.error.inj h).symm

theorem fails_of_roomId (h : s.roomId = .error e) : s.Fails dice op e :=
  eq_alreadyEnded_of_roomId h ▸ .ended op

theorem alreadyEnded_or_unknownRoom_of_room (h : s.room = .error e) :
    e = .alreadyEnded ∨ ∃ id, e = .unknownRoom id := by
  unfold room at h
  split at h
  · rename_i e' hid
    cases h
    exact .inl (eq_alreadyEnded_of_roomId hid)
  · rename_i id _
    split at h
    · exact .inr ⟨id, (Except.error.inj h).symm⟩
    · cases h

theorem fails_of_room (h : s.room = .error e) : s.Fails dice op e := by
  rcases alreadyEnded_or_unknownRoom_of_room h with rfl | ⟨id, rfl⟩
  · exact .ended op
  · exact .unknown op h

theorem fails_of_view (h : s.view = .error e) : s.Fails dice op e := by
  unfold view at h
  cases hroom : s.room with
  | ok r =>
    rw [hroom] at h
    cases h
  | error e' =>
    rw [hroom] at h
    cases h
    exact fails_of_room hroom

theorem fails_of_choose {index : Int} (h : (s.choose index).1 = .error e) :
    s.Fails dice (.choose index) e := by
  unfold choose at h
  split at h
  · rename_i e' hroom
    cases h
    exact fails_of_room hroom
  · rename_i r _
    split at h
    · obtain rfl := Except.error.inj h
      rcases Nat.lt_or_ge index.natAbs (10 ^ Overlong.limit) with hshort | hlong
      · rw [SessionError.ofIndex_of_lt hshort]
        exact .noChoice index r.id
      · rw [SessionError.ofIndex_of_le hlong]
        exact .unwritten hlong
    · cases h

theorem fails_of_quit (h : s.quit.1 = .error e) : s.Fails dice op e := by
  unfold quit at h
  split at h
  · rename_i e' hid
    cases h
    exact fails_of_roomId hid
  · cases h

end Session

namespace Situation

variable {σ : Type} {dice : Dice σ} {m : Markers}

theorem answer_eq_error {α : Type} {form : α → Answer} {result : Except SessionError α}
    {e : SaveError} (h : answer form result = .error e) :
    ∃ e', result = .error e' ∧ e = .session e' := by
  cases result with
  | ok a => cases h
  | error e' =>
    cases h
    exact ⟨e', rfl, rfl⟩

/-- Every operation but a bookmark fails with what the session can fail with. -/
theorem fails_of_perform {s : Situation σ} {op : Operation} (hop : ∀ path, op ≠ .bookmark path)
    {e : SaveError} (h : (s.perform dice m op).1 = .error e) :
    ∃ e', e = .session e' ∧ s.session.Fails dice op e' := by
  cases op with
  | view =>
    obtain ⟨e', hview, rfl⟩ := answer_eq_error h
    exact ⟨e', rfl, Session.fails_of_view hview⟩
  | room =>
    obtain ⟨e', hroom, rfl⟩ := answer_eq_error h
    exact ⟨e', rfl, Session.fails_of_room hroom⟩
  | roomId =>
    obtain ⟨e', hid, rfl⟩ := answer_eq_error h
    exact ⟨e', rfl, Session.fails_of_roomId hid⟩
  | advance =>
    obtain ⟨e', hadvance, rfl⟩ := answer_eq_error h
    exact ⟨e', rfl, .advance hadvance⟩
  | choose index =>
    obtain ⟨e', hchoose, rfl⟩ := answer_eq_error h
    exact ⟨e', rfl, Session.fails_of_choose hchoose⟩
  | quit =>
    obtain ⟨e', hquit, rfl⟩ := answer_eq_error h
    exact ⟨e', rfl, Session.fails_of_quit hquit⟩
  | bookmark path => exact absurd rfl (hop path)

end Situation

/-! ## Operations -/

namespace Situation

variable {σ : Type} (dice : Dice σ) (m : Markers)

theorem goes_perform (s : Situation σ) (op : Operation) :
    s.session.story.Goes s.session.position (s.perform dice m op).2.session.position := by
  cases op with
  | advance => exact s.session.goes_advance dice
  | choose index => exact s.session.goes_choose index
  | quit => exact s.session.goes_quit
  | view => exact .stay _
  | room => exact .stay _
  | roomId => exact .stay _
  | bookmark path => exact .stay _

theorem perform_story (s : Situation σ) (op : Operation) :
    (s.perform dice m op).2.session.story = s.session.story ∧
      (s.perform dice m op).2.session.source? = s.session.source? := by
  cases op with
  | advance => exact s.session.advance_story dice
  | choose index => exact s.session.choose_story index
  | quit => exact s.session.quit_story
  | view => exact ⟨rfl, rfl⟩
  | room => exact ⟨rfl, rfl⟩
  | roomId => exact ⟨rfl, rfl⟩
  | bookmark path => exact ⟨rfl, rfl⟩

/-! ## Runs -/

/-- A run is its first operation and then the rest of it. -/
theorem run_cons (s : Situation σ) (op : Operation) (rest : List Operation) :
    s.run dice m (op :: rest) =
      ((s.perform dice m op).1 :: ((s.perform dice m op).2.run dice m rest).1,
        ((s.perform dice m op).2.run dice m rest).2) := rfl

theorem run_append (s : Situation σ) (ops more : List Operation) :
    (s.run dice m (ops ++ more)).2 = ((s.run dice m ops).2.run dice m more).2 := by
  induction ops generalizing s with
  | nil => rfl
  | cons op rest ih =>
    rw [List.cons_append, run_cons, run_cons]
    exact ih _

theorem run_append_answers (s : Situation σ) (ops more : List Operation) :
    (s.run dice m (ops ++ more)).1 =
      (s.run dice m ops).1 ++ ((s.run dice m ops).2.run dice m more).1 := by
  induction ops generalizing s with
  | nil => rfl
  | cons op rest ih =>
    rw [List.cons_append, run_cons, run_cons, ih]
    rfl

/-- What each operation of a kind keeps and says of its answer holds after every run of such
operations and of all answers. -/
theorem run_induction_on {B : Operation → Prop} {I : Situation σ → Prop}
    {A : Except SaveError Answer → Prop}
    (hstep : ∀ s op, B op → I s → A (s.perform dice m op).1 ∧ I (s.perform dice m op).2)
    {s : Situation σ} (h : I s) {ops : List Operation} (hops : ∀ op ∈ ops, B op) :
    (∀ answer ∈ (s.run dice m ops).1, A answer) ∧ I (s.run dice m ops).2 := by
  induction ops generalizing s with
  | nil => exact ⟨by simp [run], h⟩
  | cons op rest ih =>
    obtain ⟨hop, hrest⟩ := List.forall_mem_cons.mp hops
    obtain ⟨hanswer, hnext⟩ := hstep s op hop h
    obtain ⟨hanswers, hlast⟩ := ih hnext hrest
    refine ⟨?_, hlast⟩
    intro answer hmem
    rcases List.mem_cons.mp hmem with rfl | hmem
    · exact hanswer
    · exact hanswers answer hmem

/-- What each operation keeps and says of its answer holds after every run and of
all answers. -/
theorem run_induction {I : Situation σ → Prop} {A : Except SaveError Answer → Prop}
    (hstep : ∀ s op, I s → A (s.perform dice m op).1 ∧ I (s.perform dice m op).2)
    {s : Situation σ} (h : I s) (ops : List Operation) :
    (∀ answer ∈ (s.run dice m ops).1, A answer) ∧ I (s.run dice m ops).2 :=
  run_induction_on dice m (B := fun _ => True) (fun s op _ => hstep s op) h fun _ _ => trivial

theorem run_invariant {I : Situation σ → Prop}
    (hstep : ∀ s op, I s → I (s.perform dice m op).2) {s : Situation σ} (h : I s)
    (ops : List Operation) : I (s.run dice m ops).2 :=
  (run_induction dice m (A := fun _ => True) (fun s op hs => ⟨trivial, hstep s op hs⟩) h ops).2

/-- A property of rooms to stand in that holds at the start and of the targets of
choices holds wherever a run gets to. -/
theorem run_position {Q : Text → Prop} {s : Situation σ}
    (hstart : ∀ id, s.session.position = .active id → Q id)
    (htargets : ∀ r ∈ s.session.story.rooms, ∀ c, .choice c ∈ r.transitions → Q c.target)
    (ops : List Operation) :
    (s.run dice m ops).2.session.story = s.session.story ∧
      (s.run dice m ops).2.session.source? = s.session.source? ∧
      ∀ id, (s.run dice m ops).2.session.position = .active id → Q id := by
  refine run_invariant dice m (I := fun t => t.session.story = s.session.story ∧
    t.session.source? = s.session.source? ∧ ∀ id, t.session.position = .active id → Q id)
    ?_ ⟨rfl, rfl, hstart⟩ ops
  intro t op ht
  obtain ⟨hstory, hsource, hposition⟩ := ht
  obtain ⟨hstory', hsource'⟩ := t.perform_story dice m op
  have hgoes := t.goes_perform dice m op
  rw [hstory] at hgoes
  exact ⟨hstory'.trans hstory, hsource'.trans hsource, hgoes.stands hposition htargets⟩

end Situation

end Gamebook
