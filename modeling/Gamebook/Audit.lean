import Gamebook.Finding
import Gamebook.Story
set_option autoImplicit false

/-!
# Audits

An audit looks at the rooms of a story without playing it and lists what is wrong
with it: weights that are no numbers, rooms that nothing leads out of, choices
that lead nowhere, rooms that cannot be reached, and stories that cannot end.
-/

namespace Gamebook

/-! ## Weights -/

namespace Audit

/-- The choices among transitions with their positions, the first of which is
`position`. -/
def choicesFrom (position : Nat) : List Transition → List (Nat × Choice)
  | [] => []
  | .ending _ :: rest => choicesFrom (position + 1) rest
  | .choice c :: rest => (position, c) :: choicesFrom (position + 1) rest

/-- The weighted choices of a room with their positions, their weights as they are
written, and the numbers that these stand for. -/
def weightsOf : List (Nat × Choice) → Except Overlong (List (Nat × Text × Option Nat))
  | [] => .ok []
  | (position, c) :: rest =>
    match c.weightText? with
    | none => weightsOf rest
    | some s =>
      match weightOfText s with
      | .error e => .error e
      | .ok n =>
        match weightsOf rest with
        | .error e => .error e
        | .ok more => .ok ((position, s, n) :: more)

/-- What is wrong with the weights of a room. -/
def auditWeights (r : Room) : Except Overlong (List Finding) :=
  match weightsOf (choicesFrom 0 r.transitions) with
  | .error e => .error e
  | .ok weights =>
    let invalid := weights.filterMap fun (position, s, n) =>
      if n.isNone then some (.invalidWeight r.id position s) else none
    let total := totalWeight (weights.map fun (_, _, n) => n.getD 0)
    let stuck := (Transition.manual r.transitions).isEmpty && !weights.isEmpty
      && (weights.any (fun (_, _, n) => n.isNone) || total < 1)
    .ok (invalid ++ if stuck then [.deadEnd r.id] else [])

/-- What is wrong with the weights of rooms. -/
def auditAllWeights : List Room → Except Overlong (List Finding)
  | [] => .ok []
  | r :: rest =>
    match auditWeights r with
    | .error e => .error e
    | .ok found =>
      match auditAllWeights rest with
      | .error e => .error e
      | .ok more => .ok (found ++ more)

/-! ## Start and targets -/

/-- What is wrong with the start of a story that has rooms with the given ids. -/
def auditStart (ids : List Text) (start : Text) : List Finding :=
  if start ∈ ids then [] else [.missingStart start]

/-- Rooms that no other room of the list hides: each id once, where it occurs
first, with the last room that has it. -/
def distinctRooms (rooms : List Room) : List Room :=
  (rooms.map (·.id)).eraseDups.filterMap fun id => rooms.reverse.find? (·.id = id)

/-- The choices of a room that lead to none of the rooms with the given ids. -/
def auditTargets (ids : List Text) (r : Room) : List Finding :=
  (choicesFrom 0 r.transitions).filterMap fun (position, c) =>
    if c.target ∈ ids then none else some (.missingTarget r.id position c.target)

/-! ## Reachability -/

/-- The ids of the rooms that choices lead to. -/
def targets (r : Room) : List Text := (r.transitions.filterMap Transition.choice?).map (·.target)

/-- The ids of those rooms of a list that choices of the room with an id lead to, in order. -/
def onwardIds (rooms : List Room) (id : Text) : List Text :=
  match rooms.find? (·.id = id) with
  | none => []
  | some r => (targets r).filter (· ∈ rooms.map (·.id))

/-- A search for the rooms that choices lead to. -/
structure Search where
  /-- The ids of the rooms that have been seen. -/
  seen : List Text
  /-- The ids of the rooms that are to be looked at, the next one first.  The same id may be
  pending many times, and also after its room has been seen. -/
  pending : List Text
  deriving DecidableEq, Repr, Inhabited

namespace Search

/-- The search before the first look: the start is pending, if it is one of the rooms. -/
def start (rooms : List Room) (id : Text) : Search :=
  ⟨[], if id ∈ rooms.map (·.id) then [id] else []⟩

/-- The search after a look at the next pending room.  If the room has been seen before, it is
passed over; otherwise it has been seen now, and the rooms that its choices lead to are pending
as well, the last of them first. -/
def look (rooms : List Room) (s : Search) : Search :=
  match s.pending with
  | [] => s
  | id :: rest =>
    if id ∈ s.seen then { s with pending := rest }
    else ⟨id :: s.seen, (onwardIds rooms id).reverse ++ rest⟩

/-- How many choices lead out of the rooms that have not been seen. -/
def choicesLeft (seen : List Text) : List Room → Nat
  | [] => 0
  | r :: rest => (if r.id ∈ seen then 0 else (targets r).length) + choicesLeft seen rest

/-- The number of looks to come is no greater: each choice makes one room pending, and does
so once. -/
def effort (rooms : List Room) (s : Search) : Nat :=
  s.pending.length + choicesLeft s.seen rooms

theorem choicesLeft_cons_le (id : Text) (seen : List Text) (rooms : List Room) :
    choicesLeft (id :: seen) rooms ≤ choicesLeft seen rooms := by
  induction rooms with
  | nil => exact Nat.le_refl _
  | cons r rest ih =>
    rw [choicesLeft, choicesLeft]
    by_cases hseen : r.id ∈ seen
    · rw [if_pos (List.mem_cons_of_mem id hseen), if_pos hseen]
      omega
    · rw [if_neg hseen]
      split <;> omega

theorem length_targets_add_choicesLeft_le {rooms : List Room} {seen : List Text} {r : Room}
    (hr : r ∈ rooms) (hnew : r.id ∉ seen) :
    (targets r).length + choicesLeft (r.id :: seen) rooms ≤ choicesLeft seen rooms := by
  induction rooms with
  | nil => cases hr
  | cons other rest ih =>
    rw [choicesLeft, choicesLeft]
    rcases List.mem_cons.mp hr with rfl | hr
    · have hrest := choicesLeft_cons_le r.id seen rest
      rw [if_pos List.mem_cons_self, if_neg hnew]
      omega
    · have hrest := ih hr
      by_cases hseen : other.id ∈ seen
      · rw [if_pos (List.mem_cons_of_mem r.id hseen), if_pos hseen]
        omega
      · rw [if_neg hseen]
        split <;> omega

theorem length_onwardIds_add_choicesLeft_le (rooms : List Room) {seen : List Text} {id : Text}
    (hnew : id ∉ seen) :
    (onwardIds rooms id).length + choicesLeft (id :: seen) rooms ≤ choicesLeft seen rooms := by
  unfold onwardIds
  split
  · have hle := choicesLeft_cons_le id seen rooms
    simpa using hle
  · rename_i r hfind
    obtain rfl : r.id = id := by simpa using List.find?_some hfind
    have hfilter := List.length_filter_le (· ∈ rooms.map (·.id)) (targets r)
    have hle := length_targets_add_choicesLeft_le (List.mem_of_find?_eq_some hfind) hnew
    omega

/-- Every look brings the search nearer to its end. -/
theorem effort_look_lt {rooms : List Room} {s : Search} (h : s.pending ≠ []) :
    (s.look rooms).effort rooms < s.effort rooms := by
  unfold look effort
  split
  · contradiction
  · rename_i id rest hpending
    split
    · simp [hpending]
    · rename_i hnew
      have hle := length_onwardIds_add_choicesLeft_le rooms hnew
      simp only [hpending, List.length_append, List.length_reverse, List.length_cons]
      omega

/-- The search when nothing is pending any more. -/
def finish (rooms : List Room) (s : Search) : Search :=
  if _h : s.pending = [] then s else finish rooms (s.look rooms)
termination_by s.effort rooms
decreasing_by exact effort_look_lt _h

end Search

/-- The ids of the rooms to which choices lead from a start. -/
def reachable (rooms : List Room) (start : Text) : List Text :=
  (Search.finish rooms (.start rooms start)).seen

/-- The rooms that are not reached, in order. -/
def auditRooms (ids reached : List Text) : List Finding :=
  (ids.filter (· ∉ reached)).map .unreachable

/-- What is wrong when something is reached from a start, but no room with nothing but an
ending. -/
def auditEnds (rooms : List Room) (reached : List Text) (start : Text) : List Finding :=
  if reached ≠ [] ∧
      !(rooms.any fun r => r.id ∈ reached && (Transition.ending? r.transitions).isSome) then
    [.endless start]
  else []

end Audit

/-! ## The whole audit -/

/-- What is wrong with a story that is started in a room: first the weights, then
the start, the targets of choices and what can be reached. -/
def audit (s : Story) (start? : Option Text) : Except Overlong (List Finding) :=
  match Audit.auditAllWeights s.rooms with
  | .error e => .error e
  | .ok weights =>
    let start := s.startId start?
    let rooms := Audit.distinctRooms s.rooms
    let reached := Audit.reachable rooms start
    .ok (weights
      ++ Audit.auditStart s.ids start
      ++ rooms.flatMap (Audit.auditTargets s.ids)
      ++ Audit.auditRooms s.ids reached
      ++ Audit.auditEnds rooms reached start)

end Gamebook
