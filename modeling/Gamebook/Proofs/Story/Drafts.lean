import Gamebook.Proofs.Story.Lawful
import Gamebook.Proofs.Story.Refusals
import Mathlib.Data.List.Forall2
set_option autoImplicit false

/-!
# Reading with drafts

A place of the reader has by its form whatever the next line may be written to.  Here stories
are read in a second way, in which nothing of the sort is given: a phase, a pile of drafts, the
last of which is written to, and the ids that have been used are kept side by side, and work on
a draft that is not there, or on transitions that are not open, is a slip.  Whatever the marks
are, no line leads to a slip, because the drafts on the desk are always those of some place
(`Desk.Holds`), and both ways of reading come to the same.
-/

namespace Gamebook

open Text

namespace Story.Drafting

open Reader

/-! ## Drafts -/

/-- What the next line is read as. -/
inductive Phase where
  | preamble
  | describing
  | listing
  deriving DecidableEq, Repr, Inhabited

/-- A room that is being written. -/
structure Draft where
  id : Text
  title : Text
  description : List Text
  /-- There are none before the description has ended. -/
  transitions? : Option (List Transition)
  deriving DecidableEq, Repr, Inhabited

/-- What is kept from line to line. -/
structure Desk where
  phase : Phase
  drafts : List Draft
  ids : List Text
  deriving DecidableEq, Repr, Inhabited

/-- Work for which something is missing. -/
inductive Slip where
  /-- There is no draft to write to. -/
  | noDraft
  /-- A transition is to be written before the description has ended. -/
  | closedTransitions
  /-- A story is to be made of no rooms. -/
  | noRooms
  deriving DecidableEq, Repr, Inhabited

/-- Why a line is not taken. -/
inductive Stop where
  | refused (refusal : Refusal)
  | slipped (slip : Slip)
  deriving DecidableEq, Repr, Inhabited

/-- Why there is no story. -/
inductive Failure where
  | told (error : StoryError)
  | slipped (slip : Slip)
  deriving DecidableEq, Repr, Inhabited

/-! ## Single lines -/

namespace Desk

/-- Writes to the last draft. -/
def revise (d : Desk) (phase : Phase) (write : Draft → Except Stop Draft) : Except Stop Desk :=
  match d.drafts.getLast? with
  | none => .error (.slipped .noDraft)
  | some draft =>
    match write draft with
    | .error e => .error e
    | .ok written => .ok ⟨phase, d.drafts.dropLast ++ [written], d.ids⟩

/-- Starts a draft, from what follows the mark of a header. -/
def enter (m : Markers) (d : Desk) (s : Text) : Except Stop Desk :=
  match header m s with
  | .error e => .error (.refused e)
  | .ok (id, title) =>
    if d.ids.contains id then .error (.refused (.duplicate id))
    else .ok ⟨.describing, d.drafts ++ [⟨id, title, [], none⟩], d.ids ++ [id]⟩

/-- Ends a description. -/
def close (d : Desk) : Except Stop Desk :=
  if d.phase = .describing then
    d.revise .listing fun draft => .ok { draft with transitions? := some [] }
  else .error (.refused .malformed)

/-- Adds a line to a description. -/
def describe (d : Desk) (line : Text) : Except Stop Desk :=
  d.revise .describing fun draft => .ok { draft with description := draft.description ++ [line] }

/-- Adds a transition. -/
def list (m : Markers) (d : Desk) (line : Text) : Except Stop Desk :=
  d.revise .listing fun draft =>
    match draft.transitions? with
    | none => .error (.slipped .closedTransitions)
    | some earlier =>
      match transition m earlier line with
      | .error e => .error (.refused e)
      | .ok t => .ok { draft with transitions? := some (earlier ++ [t]) }

/-- The desk after a trimmed line. -/
def step (m : Markers) (d : Desk) (line : Text) : Except Stop Desk :=
  if d.phase ≠ .describing ∧ isSkipped m line = true then .ok d
  else
    match if d.phase = .describing then none else after? m.room line with
    | some s => d.enter m s
    | none =>
      if line = m.descriptionEnd then d.close
      else
        match d.phase with
        | .preamble => .error (.refused .malformed)
        | .describing => d.describe line
        | .listing => d.list m line

end Desk

/-! ## All lines -/

/-- The desk after lines, the first of which has the given number. -/
def readFrom (m : Markers) : Nat → Desk → List Text → Except Failure Desk
  | _, d, [] => .ok d
  | number, d, raw :: rest =>
    match d.step m (trim raw) with
    | .error (.refused e) => .error (.told (e.error number (trim raw)))
    | .error (.slipped slip) => .error (.slipped slip)
    | .ok next => readFrom m (number + 1) next rest

/-- What a draft lacks. -/
def Draft.lack? (d : Draft) : Option StoryError :=
  match d.transitions? with
  | none => some (.unclosedDescription d.id)
  | some [] => some (.noTransitions d.id)
  | some (_ :: _) => none

/-- The room that is written. -/
def Draft.room (d : Draft) : Room :=
  ⟨d.id, d.title, joinLines d.description, d.transitions?.getD []⟩

/-- The story of the drafts, if none of them lacks anything. -/
def finish (drafts : List Draft) : Except Failure Story :=
  if drafts = [] then .error (.told .noRooms)
  else
    match drafts.findSome? Draft.lack? with
    | some e => .error (.told e)
    | none =>
      match Story.ofRooms (drafts.map Draft.room) with
      | .error _ => .error (.slipped .noRooms)
      | .ok story => .ok story

/-- The story that lines hold. -/
def read (m : Markers) (lines : List Text) : Except Failure Story :=
  match readFrom m 1 ⟨.preamble, [], []⟩ lines with
  | .error e => .error e
  | .ok d => finish d.drafts

/-! ## What the desk holds -/

/-- The draft of a room whose description has ended. -/
structure Draft.IsOf (d : Draft) (r : Room) : Prop where
  room : d.room = r
  transitions : d.transitions? = some r.transitions

/-- The desk holds what has been read at a place. -/
inductive Desk.Holds : Desk → Place → Prop where
  | preamble : Holds ⟨.preamble, [], []⟩ .preamble
  | describing {drafts : List Draft} {finished : List Room} (id title : Text)
      (description : List Text) (earlier : List.Forall₂ Draft.IsOf drafts finished) :
      Holds ⟨.describing, drafts ++ [⟨id, title, description, none⟩], finished.map (·.id) ++ [id]⟩
        (.describing finished id title description)
  | listing {drafts : List Draft} {finished : List Room} {draft : Draft} {room : Room}
      (earlier : List.Forall₂ Draft.IsOf drafts finished) (last : draft.IsOf room) :
      Holds ⟨.listing, drafts ++ [draft], finished.map (·.id) ++ [room.id]⟩
        (.listing finished room)

variable {m : Markers} {d : Desk} {place : Place} {line : Text}

theorem Desk.revise_concat (phase phase' : Phase) (drafts : List Draft) (draft : Draft)
    (ids : List Text) (write : Draft → Except Stop Draft) :
    revise ⟨phase, drafts ++ [draft], ids⟩ phase' write =
      match write draft with
      | .error e => .error e
      | .ok written => .ok ⟨phase', drafts ++ [written], ids⟩ := by
  simp only [revise, List.getLast?_concat, List.dropLast_concat]

theorem Draft.IsOf.append {draft : Draft} {room : Room} (h : draft.IsOf room) (t : Transition) :
    ({ draft with transitions? := some (room.transitions ++ [t]) } : Draft).IsOf
      { room with transitions := room.transitions ++ [t] } := by
  obtain ⟨rfl, -⟩ := h
  exact ⟨rfl, rfl⟩

/-- Both come to results that are related, or to the same error. -/
inductive Agrees {α β ε ε' : Type} (R : α → β → Prop) (say : ε → ε') :
    Except ε' α → Except ε β → Prop where
  | ok {a : α} {b : β} (h : R a b) : Agrees R say (.ok a) (.ok b)
  | error (e : ε) : Agrees R say (.error (say e)) (.error e)

theorem Desk.Holds.enter (h : d.Holds place) (houtside : place.IsOutside) (s : Text) :
    Agrees Holds Stop.refused (d.enter m s) (enterRoom m place s) := by
  have hids : d.ids = place.ids := by cases h <;> rfl
  have hdrafts : List.Forall₂ Draft.IsOf d.drafts place.roomsBefore := by
    cases h with
    | preamble => exact .nil
    | describing => exact houtside.elim
    | listing earlier last => exact List.rel_append earlier (.cons last .nil)
  rw [Desk.enter, enterRoom, hids]
  cases header m s with
  | error e => exact .error e
  | ok found =>
    obtain ⟨id, title⟩ := found
    dsimp only
    split
    · exact .error _
    · rw [← Place.ids_of_isOutside houtside]
      exact .ok (.describing id title [] hdrafts)

/-- Outside of descriptions the line that ends one is refused. -/
theorem Desk.step_outside (h : d.phase ≠ .describing) (m : Markers) (line : Text) :
    d.step m line =
      if isSkipped m line = true then .ok d
      else
        match after? m.room line with
        | some s => d.enter m s
        | none =>
          if line = m.descriptionEnd ∨ d.phase = .preamble then .error (.refused .malformed)
          else d.list m line := by
  obtain ⟨phase, drafts, ids⟩ := d
  cases phase with
  | describing => exact absurd rfl h
  | preamble => simp [Desk.step, Desk.close]
  | listing => simp [Desk.step, Desk.close]

/-- Nothing is missing for any line: the desk takes it as the reader does, or refuses it for the
same reason. -/
theorem Desk.Holds.step (h : d.Holds place) (m : Markers) (line : Text) :
    Agrees Holds Stop.refused (d.step m line) (Reader.step m place line) := by
  cases h with
  | preamble =>
    have hholds : Desk.Holds ⟨.preamble, [], []⟩ .preamble := .preamble
    rw [Desk.step_outside (by decide), Reader.step]
    split
    · exact .ok hholds
    · cases after? m.room line with
      | some s => exact hholds.enter trivial s
      | none =>
        rw [if_pos (.inr rfl)]
        exact .error Refusal.malformed
  | @describing drafts finished id title description earlier =>
    simp only [Desk.step, Reader.step, ne_eq, not_true_eq_false, false_and, if_false, if_true]
    by_cases hend : line = m.descriptionEnd
    · simp only [hend, if_true, Desk.close, Desk.revise_concat]
      exact .ok (.listing earlier ⟨rfl, rfl⟩)
    · simp only [hend, if_false, Desk.describe, Desk.revise_concat]
      exact .ok (.describing id title _ earlier)
  | @listing drafts finished draft room earlier last =>
    have hholds := Desk.Holds.listing earlier last
    rw [Desk.step_outside (by simp), Reader.step]
    split
    · exact .ok hholds
    · cases after? m.room line with
      | some s => exact hholds.enter trivial s
      | none =>
        by_cases hend : line = m.descriptionEnd
        · simp only [hend, true_or, if_true]
          exact .error Refusal.malformed
        · simp only [hend, false_or, reduceCtorEq, if_false, Desk.list, Desk.revise_concat,
            last.transitions]
          cases transition m room.transitions line with
          | error e => exact .error e
          | ok t => exact .ok (.listing earlier (last.append t))

/-- The desk gets as far as the reader. -/
theorem Desk.Holds.readFrom (h : d.Holds place) (m : Markers) (number : Nat) (raw : List Text) :
    Agrees Holds Failure.told (readFrom m number d raw) (Reader.readFrom m number place raw) := by
  induction raw generalizing number d place with
  | nil => exact .ok h
  | cons line rest ih =>
    have hstep := h.step m (trim line)
    rw [Drafting.readFrom, Reader.readFrom]
    generalize d.step m (trim line) = taken at hstep
    generalize Reader.step m place (trim line) = read at hstep
    cases hstep with
    | ok hnext => exact ih hnext (number + 1)
    | error e => exact .error _

/-! ## Whole stories -/

theorem findSome?_lack? {drafts : List Draft} {rooms : List Room}
    (h : List.Forall₂ Draft.IsOf drafts rooms) :
    drafts.findSome? Draft.lack? =
      (rooms.find? (·.transitions.isEmpty)).map fun r => .noTransitions r.id := by
  induction h with
  | nil => rfl
  | @cons draft room drafts rooms hdraft _ ih =>
    have hid : draft.id = room.id := congrArg Room.id hdraft.room
    rw [List.findSome?_cons, List.find?_cons, Draft.lack?, hdraft.transitions]
    cases room.transitions with
    | nil => simp [hid]
    | cons t ts => simpa using ih

theorem map_room {drafts : List Draft} {rooms : List Room}
    (h : List.Forall₂ Draft.IsOf drafts rooms) : drafts.map Draft.room = rooms := by
  induction h with
  | nil => rfl
  | cons hdraft _ ih => rw [List.map_cons, hdraft.room, ih]

theorem Desk.Holds.finish (h : d.Holds place) :
    finish d.drafts = (Reader.finish place).mapError .told := by
  cases h with
  | preamble => rfl
  | @describing drafts finished id title description earlier =>
    rw [Drafting.finish, if_neg (by simp), List.findSome?_append, findSome?_lack? earlier,
      Reader.finish, complete]
    cases finished.find? (·.transitions.isEmpty) <;> rfl
  | @listing drafts finished draft room earlier last =>
    have hall : List.Forall₂ Draft.IsOf (drafts ++ [draft]) (finished ++ [room]) :=
      List.rel_append earlier (.cons last .nil)
    rw [Drafting.finish, if_neg (by simp), findSome?_lack? hall, map_room hall, Reader.finish,
      complete]
    cases (finished ++ [room]).find? (·.transitions.isEmpty) with
    | some r => rfl
    | none => simp [Story.ofRooms, Except.mapError]

/-- Both ways of reading come to the same, and no line leads to a slip. -/
theorem read_eq (m : Markers) (lines : List Text) :
    read m lines = (Story.read m lines).mapError .told := by
  have hreads := Desk.Holds.preamble.readFrom m 1 lines
  rw [read, Story.read]
  generalize Drafting.readFrom m 1 _ lines = taken at hreads
  generalize Reader.readFrom m 1 _ lines = reached at hreads
  cases hreads with
  | ok hlast => exact hlast.finish
  | error e => rfl

end Story.Drafting

/-! ## What reading comes to -/

namespace Story

open Reader

/-- What stories have that are read with any marks: rooms with names of their own, by which they
are found, each with an ending alone or with choices only, which lead to names. -/
structure IsOrderly (s : Story) : Prop where
  rooms_ne_nil : s.rooms ≠ []
  ids_nodup : s.ids.Nodup
  ids : ∀ r ∈ s.rooms, trim r.id = r.id ∧ isAllBlank r.id = false
  targets : ∀ r ∈ s.rooms, ∀ c, .choice c ∈ r.transitions →
    trim c.target = c.target ∧ isAllBlank c.target = false
  leads : ∀ r ∈ s.rooms, (∃ outcome, r.transitions = [.ending outcome]) ∨
    (r.transitions ≠ [] ∧ ∀ t ∈ r.transitions, t.isEnding = false)
  found : ∀ r ∈ s.rooms, s.find? r.id = some r

theorem isOrderly_of_read {m : Markers} {lines : List Text} {story : Story}
    (h : Story.read m lines = .ok story) : story.IsOrderly := by
  have hlawful : story.Lawful fun _ => True :=
    lawful_of_read h fun _ _ _ _ => trivial
  refine ⟨story.rooms_ne_nil, hlawful.ids_nodup, ?_, ?_, ?_, ?_⟩
  · intro r hr
    have hid := (hlawful.rooms r hr).id
    exact ⟨trim_eq_self hid.trimmed, hid.isAllBlank⟩
  · intro r hr c hc
    have htarget := (hlawful.rooms r hr).targets c hc
    exact ⟨trim_eq_self htarget.trimmed, htarget.isAllBlank⟩
  · intro r hr
    exact (hlawful.rooms r hr).unmixed.imp_right fun h => ⟨hlawful.transitions_ne_nil r hr, h⟩
  · intro r hr
    exact Room.find?_id_of_nodup hlawful.ids_nodup hr

/-- A separator is missed only where one of the marks at which lines are cut is empty. -/
theorem mark_eq_nil_of_read {m : Markers} {lines : List Text}
    (h : Story.read m lines = .error .emptySeparator) :
    m.title = [] ∨ m.target = [] ∨ m.weight = [] := by
  by_contra hne
  simp only [not_or] at hne
  exact read_ne_emptySeparator ⟨hne.1, hne.2.1, hne.2.2⟩ lines h

/-- Whatever the marks and the lines are, reading them with drafts never slips, and comes to what
the reader comes to: a story that is orderly, or a line that is refused, or a part of the story
that is missing, or a separator that is empty, as one of the three marks at which lines are cut
is. -/
theorem read_orderly_or_error (m : Markers) (lines : List Text) :
    (∃ story, Drafting.read m lines = .ok story ∧ Story.read m lines = .ok story ∧
      story.IsOrderly) ∨
    ∃ e, Drafting.read m lines = .error (.told e) ∧ Story.read m lines = .error e ∧
      ((∃ number text, e = .malformedLine number text) ∨
        (∃ number text room, e = .duplicateRoom number text room) ∨
        (∃ part, e.missingPart? = some part) ∨
        (e = .emptySeparator ∧ e.message = "empty separator".toList ∧
          (m.title = [] ∨ m.target = [] ∨ m.weight = []))) := by
  rw [Drafting.read_eq]
  cases hread : Story.read m lines with
  | ok story => exact .inl ⟨story, rfl, rfl, isOrderly_of_read hread⟩
  | error e =>
    refine .inr ⟨e, rfl, rfl, ?_⟩
    cases e with
    | malformedLine number text => exact .inl ⟨number, text, rfl⟩
    | duplicateRoom number text room => exact .inr (.inl ⟨number, text, room, rfl⟩)
    | noRooms => exact .inr (.inr (.inl ⟨_, rfl⟩))
    | unclosedDescription room => exact .inr (.inr (.inl ⟨_, rfl⟩))
    | noTransitions room => exact .inr (.inr (.inl ⟨_, rfl⟩))
    | emptySeparator => exact .inr (.inr (.inr ⟨rfl, rfl, mark_eq_nil_of_read hread⟩))

/-- With a room mark that every line starts with, and comments that start like endings. -/
example :
    let m := { Markers.standard with room := [], comment := "=".toList }
    Drafting.read m ["hall: R".toList, ";;;".toList, "=)".toList, ": x -> y".toList] =
      .error (.told (.malformedLine 4 ": x -> y".toList)) := by
  decide

end Story

end Gamebook
