import Gamebook.Proofs.Text.Cut
import Gamebook.Proofs.Text.Trim
import Gamebook.Story.Reader
set_option autoImplicit false

/-!
# Moves of the story reader

What a line means to the reader is said here once, for all marks: for each
function of the reader that looks into a line there is one statement of when it
succeeds and with what, and a trimmed line makes one of five moves.  Everything
about whole stories is proved from these moves.
-/

namespace Gamebook.Story.Reader

open Text

variable {m : Markers}

/-! ## Single lines -/

theorem cutAt_eq_ok_some_iff {separator s before tail : Text} :
    cutAt separator s = .ok (some (before, tail)) ↔
      separator ≠ [] ∧ IsFirstCut separator s before tail := by
  unfold cutAt
  split
  · rename_i hnil
    simp [hnil]
  · rename_i hne
    rw [Except.ok.injEq, cutFirst?_eq_some_iff hne]
    exact ⟨fun h => ⟨hne, h⟩, fun h => h.2⟩

theorem header_eq_ok_iff {s id title : Text} :
    header m s = .ok (id, title) ↔
      m.title ≠ [] ∧ ∃ before tail, IsFirstCut m.title s before tail ∧ trim before ≠ [] ∧
        id = trim before ∧ title = trim tail := by
  constructor
  · intro h
    unfold header at h
    split at h
    · simp at h
    · simp at h
    · rename_i before tail hcut
      obtain ⟨hne, hfirst⟩ := cutAt_eq_ok_some_iff.mp hcut
      split at h
      · simp at h
      · rename_i hid
        obtain ⟨rfl, rfl⟩ : trim before = id ∧ trim tail = title := by simpa using h
        exact ⟨hne, before, tail, hfirst, hid, rfl, rfl⟩
  · intro h
    obtain ⟨hne, before, tail, hfirst, hid, rfl, rfl⟩ := h
    simp only [header, cutAt_eq_ok_some_iff.mpr ⟨hne, hfirst⟩, if_neg hid]

/-- The target and the weight in what follows the separator of a choice. -/
def IsDestination (m : Markers) (s target : Text) (weight? : Option Text) : Prop :=
  (∃ before tail, IsLastCut m.weight s before tail ∧
    target = trim before ∧ weight? = some (trim tail)) ∨
  (¬ m.weight <:+: s ∧ target = trim s ∧ weight? = none)

theorem destination_eq_ok_iff {s target : Text} {weight? : Option Text} :
    destination m s = .ok (target, weight?) ↔
      m.weight ≠ [] ∧ IsDestination m s target weight? := by
  unfold destination
  split
  · rename_i hnil
    simp [hnil]
  · rename_i hne
    constructor
    · intro h
      refine ⟨hne, ?_⟩
      split at h
      · rename_i before tail hcut
        obtain ⟨rfl, rfl⟩ : trim before = target ∧ some (trim tail) = weight? := by simpa using h
        exact .inl ⟨before, tail, (cutLast?_eq_some_iff hne).mp hcut, rfl, rfl⟩
      · rename_i hcut
        obtain ⟨rfl, rfl⟩ : trim s = target ∧ none = weight? := by simpa using h
        exact .inr ⟨(cutLast?_eq_none_iff hne).mp hcut, rfl, rfl⟩
    · intro h
      obtain ⟨-, ⟨before, tail, hcut, rfl, rfl⟩ | ⟨hnot, rfl, rfl⟩⟩ := h
      · rw [(cutLast?_eq_some_iff hne).mpr hcut]
      · rw [(cutLast?_eq_none_iff hne).mpr hnot]

theorem choice_eq_ok_iff {s : Text} {c : Choice} :
    choice m s = .ok c ↔
      m.target ≠ [] ∧ m.weight ≠ [] ∧ ∃ text tail, IsFirstCut m.target s text tail ∧
        c.text = trim text ∧ IsDestination m tail c.target c.weightText? ∧ c.target ≠ [] := by
  constructor
  · intro h
    unfold choice at h
    split at h
    · simp at h
    · simp at h
    · rename_i text tail hcut
      obtain ⟨hne, hfirst⟩ := cutAt_eq_ok_some_iff.mp hcut
      split at h
      · simp at h
      · rename_i target weight hdest
        obtain ⟨hweight, hdest⟩ := destination_eq_ok_iff.mp hdest
        split at h
        · simp at h
        · rename_i htarget
          obtain rfl : (⟨trim text, target, weight⟩ : Choice) = c := by simpa using h
          exact ⟨hne, hweight, text, tail, hfirst, rfl, hdest, htarget⟩
  · intro h
    obtain ⟨hne, hweight, text, tail, hfirst, htext, hdest, htarget⟩ := h
    simp only [choice, cutAt_eq_ok_some_iff.mpr ⟨hne, hfirst⟩,
      destination_eq_ok_iff.mpr ⟨hweight, hdest⟩, if_neg htarget, ← htext]

/-- The ending that a line is. -/
def IsEnding (m : Markers) (line : Text) (outcome : Outcome) : Prop :=
  (line = m.success ∧ outcome = .success) ∨
    (line ≠ m.success ∧ line = m.failure ∧ outcome = .failure)

theorem transition_eq_ok_iff {earlier : List Transition} {line : Text} {t : Transition} :
    transition m earlier line = .ok t ↔
      (∀ e ∈ earlier, e.isEnding = false) ∧
        ((∃ s c, line = m.choice ++ s ∧ choice m s = .ok c ∧ t = .choice c) ∨
          (¬ m.choice <+: line ∧ earlier = [] ∧
            ∃ outcome, IsEnding m line outcome ∧ t = .ending outcome)) := by
  constructor
  · intro h
    unfold transition at h
    split at h
    · simp at h
    · rename_i hearlier
      refine ⟨by simpa using hearlier, ?_⟩
      split at h
      · rename_i s hs
        cases hc : choice m s with
        | error e => simp [hc, Except.map] at h
        | ok c =>
          obtain rfl : Transition.choice c = t := by simpa [hc, Except.map] using h
          exact .inl ⟨s, c, after?_eq_some_iff.mp hs, hc, rfl⟩
      · rename_i hs
        split at h
        · rename_i hline
          split at h
          · rename_i hnil
            obtain rfl := Except.ok.inj h
            refine .inr ⟨fun ⟨s, hpre⟩ => after?_eq_none_iff.mp hs s hpre.symm, hnil, _, ?_, rfl⟩
            by_cases hsuccess : line = m.success
            · rw [if_pos hsuccess]
              exact .inl ⟨hsuccess, rfl⟩
            · rw [if_neg hsuccess]
              exact .inr ⟨hsuccess, hline.resolve_left hsuccess, rfl⟩
          · simp at h
        · simp at h
  · intro h
    obtain ⟨hearlier, hline⟩ := h
    have hany : ¬ earlier.any (·.isEnding) = true := by simpa using hearlier
    rcases hline with ⟨s, c, hs, hc, rfl⟩ | ⟨hs, rfl, outcome, hending, rfl⟩
    · simp only [transition, if_neg hany, after?_eq_some_iff.mpr hs, hc, Except.map]
    · have hnone : after? m.choice line = none :=
        after?_eq_none_iff.mpr fun s h => hs ⟨s, h.symm⟩
      simp only [transition, if_neg hany, hnone]
      rcases hending with ⟨rfl, rfl⟩ | ⟨hsuccess, rfl, rfl⟩
      · simp
      · simp [hsuccess]

/-! ## Moves -/

/-- The place is not inside a description. -/
def Place.IsOutside : Place → Prop
  | .describing .. => False
  | _ => True

/-- One trimmed line takes the reader from a place to the next. -/
inductive Move (m : Markers) : Place → Text → Place → Prop where
  /-- an empty line or a comment outside of descriptions -/
  | skip {place : Place} {line : Text} (outside : place.IsOutside)
      (skipped : isSkipped m line = true) : Move m place line place
  /-- the header of a new room -/
  | enter {place : Place} {line s id title : Text} (outside : place.IsOutside)
      (spoken : isSkipped m line = false) (mark : line = m.room ++ s)
      (read : header m s = .ok (id, title)) (new : id ∉ place.ids) :
      Move m place line (.describing place.roomsBefore id title [])
  /-- the line that ends a description -/
  | close {finished : List Room} {id title : Text} {description : List Text} :
      Move m (.describing finished id title description) m.descriptionEnd
        (.listing finished ⟨id, title, joinLines description, []⟩)
  /-- any other line of a description -/
  | describe {finished : List Room} {id title line : Text} {description : List Text}
      (going : line ≠ m.descriptionEnd) :
      Move m (.describing finished id title description) line
        (.describing finished id title (description ++ [line]))
  /-- a transition -/
  | list {finished : List Room} {room : Room} {line : Text} {t : Transition}
      (spoken : isSkipped m line = false) (unmarked : ¬ m.room <+: line)
      (going : line ≠ m.descriptionEnd) (read : transition m room.transitions line = .ok t) :
      Move m (.listing finished room) line
        (.listing finished { room with transitions := room.transitions ++ [t] })

theorem enterRoom_eq_ok_iff {place next : Place} {s : Text} :
    enterRoom m place s = .ok next ↔
      ∃ id title, header m s = .ok (id, title) ∧ id ∉ place.ids ∧
        next = .describing place.roomsBefore id title [] := by
  unfold enterRoom
  cases header m s with
  | error e => simp
  | ok found =>
    obtain ⟨id, title⟩ := found
    constructor
    · intro h
      by_cases hid : id ∈ place.ids
      · simp [hid] at h
      · obtain rfl : Place.describing place.roomsBefore id title [] = next := by simpa [hid] using h
        exact ⟨id, title, rfl, hid, rfl⟩
    · intro h
      obtain ⟨id', title', hread, hnew, rfl⟩ := h
      cases hread
      simp [hnew]

theorem move_of_step {place next : Place} {line : Text} (h : step m place line = .ok next) :
    Move m place line next := by
  cases place with
  | preamble =>
    simp only [step] at h
    split at h
    · rename_i hskip
      cases h
      exact .skip trivial hskip
    · rename_i hskip
      split at h
      · rename_i s hs
        obtain ⟨id, title, hread, hnew, rfl⟩ := enterRoom_eq_ok_iff.mp h
        exact .enter trivial (by simpa using hskip) (after?_eq_some_iff.mp hs) hread hnew
      · simp at h
  | describing finished id title description =>
    simp only [step] at h
    split at h
    · rename_i hend
      cases h
      subst hend
      exact .close
    · rename_i hend
      cases h
      exact .describe hend
  | listing finished room =>
    simp only [step] at h
    split at h
    · rename_i hskip
      cases h
      exact .skip trivial hskip
    · rename_i hskip
      split at h
      · rename_i s hs
        obtain ⟨id, title, hread, hnew, rfl⟩ := enterRoom_eq_ok_iff.mp h
        exact .enter trivial (by simpa using hskip) (after?_eq_some_iff.mp hs) hread hnew
      · rename_i hs
        split at h
        · simp at h
        · rename_i hend
          split at h
          · simp at h
          · rename_i t ht
            cases h
            refine .list (by simpa using hskip) ?_ hend ht
            intro h
            obtain ⟨s, hpre⟩ := h
            exact after?_eq_none_iff.mp hs s hpre.symm

theorem step_of_move {place next : Place} {line : Text} (h : Move m place line next) :
    step m place line = .ok next := by
  cases h with
  | skip outside skipped =>
    cases place with
    | preamble => simp only [step, skipped, if_true]
    | describing => exact absurd outside id
    | listing => simp only [step, skipped, if_true]
  | enter outside spoken mark read new =>
    have henter := enterRoom_eq_ok_iff.mpr ⟨_, _, read, new, rfl⟩
    have hs := after?_eq_some_iff.mpr mark
    cases place with
    | preamble => simp only [step, spoken, Bool.false_eq_true, if_false, hs, henter]
    | describing => exact absurd outside id
    | listing => simp only [step, spoken, Bool.false_eq_true, if_false, hs, henter]
  | close => simp only [step, if_true]
  | describe going => simp only [step, if_neg going]
  | list spoken unmarked going read =>
    have hs : after? m.room line = none :=
      after?_eq_none_iff.mpr fun s h => unmarked ⟨s, h.symm⟩
    simp only [step, spoken, Bool.false_eq_true, if_false, hs, if_neg going, read]

/-- The reader takes a line exactly if the line makes a move. -/
theorem step_eq_ok_iff {place next : Place} {line : Text} :
    step m place line = .ok next ↔ Move m place line next :=
  ⟨move_of_step, step_of_move⟩

/-! ## Many moves -/

/-- Trimmed lines, one after the other, take the reader from a place to another. -/
inductive Reads (m : Markers) : Place → List Text → Place → Prop where
  | nil (place : Place) : Reads m place [] place
  | cons {place next last : Place} {line : Text} {rest : List Text}
      (head : Move m place line next) (tail : Reads m next rest last) :
      Reads m place (line :: rest) last

theorem Reads.append {place next last : Place} {front back : List Text}
    (h : Reads m place front next) (h' : Reads m next back last) :
    Reads m place (front ++ back) last := by
  induction h with
  | nil => exact h'
  | cons head _ ih => exact .cons head (ih h')

/-- Lines can be read up to any point first, and then the rest. -/
theorem Reads.split {place last : Place} {front back : List Text}
    (h : Reads m place (front ++ back) last) :
    ∃ next, Reads m place front next ∧ Reads m next back last := by
  induction front generalizing place with
  | nil => exact ⟨place, .nil place, h⟩
  | cons line rest ih =>
    cases h with
    | cons head tail =>
      obtain ⟨next, hfront, hback⟩ := ih tail
      exact ⟨next, .cons head hfront, hback⟩

theorem Reads.single {place next : Place} {line : Text} (h : Move m place line next) :
    Reads m place [line] next :=
  .cons h (.nil next)

/-- What every move keeps, with the lines before it in view, holds after all
lines. -/
theorem Reads.invariant {I : List Text → Place → Prop}
    (hstep : ∀ {before : List Text} {place next : Place} {line : Text},
      I before place → Move m place line next → I (before ++ [line]) next)
    {before lines : List Text} {place last : Place} (h : Reads m place lines last)
    (hI : I before place) : I (before ++ lines) last := by
  induction h generalizing before with
  | nil => simpa using hI
  | cons head _ ih => simpa using ih (hstep hI head)

theorem readFrom_eq_ok_iff {number : Nat} {place last : Place} {raw : List Text} :
    readFrom m number place raw = .ok last ↔ Reads m place (raw.map trim) last := by
  induction raw generalizing number place with
  | nil =>
    constructor
    · intro h
      cases h
      exact .nil _
    · intro h
      cases h
      rfl
  | cons line rest ih =>
    rw [readFrom, List.map_cons]
    constructor
    · intro h
      split at h
      · simp at h
      · rename_i next hnext
        exact .cons (step_eq_ok_iff.mp hnext) (ih.mp h)
    · intro h
      cases h with
      | cons head tail =>
        rw [step_eq_ok_iff.mpr head]
        exact ih.mpr tail

/-! ## Whole stories -/

theorem complete_eq_ok_iff {rooms found : List Room} :
    complete rooms = .ok found ↔ found = rooms ∧ ∀ r ∈ rooms, r.transitions ≠ [] := by
  unfold complete
  split
  · rename_i room hroom
    have hmem := List.mem_of_find?_eq_some hroom
    have hempty : room.transitions = [] := by simpa using List.find?_some hroom
    simp only [reduceCtorEq, false_iff, not_and]
    exact fun _ hall => hall room hmem hempty
  · rename_i hnone
    rw [List.find?_eq_none] at hnone
    constructor
    · intro h
      exact ⟨(Except.ok.inj h).symm, fun r hr hnil => hnone r hr (by simp [hnil])⟩
    · intro h
      obtain ⟨rfl, -⟩ := h
      rfl

theorem finish_eq_ok_iff {place : Place} {story : Story} :
    finish place = .ok story ↔
      ∃ finished room, place = .listing finished room ∧ story.rooms = finished ++ [room] ∧
        ∀ r ∈ story.rooms, r.transitions ≠ [] := by
  cases place with
  | preamble => simp [finish]
  | describing finished id title description =>
    simp only [finish]
    split <;> simp
  | listing finished room =>
    simp only [finish]
    split
    · rename_i e he
      simp only [reduceCtorEq, false_iff]
      intro h
      obtain ⟨finished', room', heq, hrooms, hall⟩ := h
      cases heq
      rw [hrooms] at hall
      rw [complete_eq_ok_iff.mpr ⟨rfl, hall⟩] at he
      simp at he
    · rename_i found hfound
      have hall := (complete_eq_ok_iff.mp hfound).2
      constructor
      · intro h
        obtain rfl := Except.ok.inj h
        exact ⟨finished, room, rfl, rfl, hall⟩
      · intro h
        obtain ⟨finished', room', heq, hrooms, -⟩ := h
        cases heq
        cases story
        cases hrooms
        rfl

/-- A story is read exactly if its lines lead from the start among the transitions
of some last room, and every room has transitions. -/
theorem read_eq_ok_iff {raw : List Text} {story : Story} :
    Story.read m raw = .ok story ↔
      ∃ finished room, Reads m .preamble (raw.map trim) (.listing finished room) ∧
        story.rooms = finished ++ [room] ∧ ∀ r ∈ story.rooms, r.transitions ≠ [] := by
  unfold Story.read
  constructor
  · intro h
    split at h
    · simp at h
    · rename_i place hplace
      obtain ⟨finished, room, rfl, hrooms, hall⟩ := finish_eq_ok_iff.mp h
      exact ⟨finished, room, readFrom_eq_ok_iff.mp hplace, hrooms, hall⟩
  · intro h
    obtain ⟨finished, room, hreads, hrooms, hall⟩ := h
    rw [readFrom_eq_ok_iff.mpr hreads]
    exact finish_eq_ok_iff.mpr ⟨finished, room, rfl, hrooms, hall⟩

end Gamebook.Story.Reader
