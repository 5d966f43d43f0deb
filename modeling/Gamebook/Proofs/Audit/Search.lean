import Gamebook.Proofs.Audit
import Mathlib.Logic.Function.Iterate
import Mathlib.Logic.Relation
set_option autoImplicit false

/-!
# The search for reachable rooms

An audit searches a story from its start.  The search sees nothing but what choices lead
to, and all that it sees is closed under the choices of rooms: it sees exactly the rooms
of the story to which choices lead, whatever their weights.  It needs no more looks than the
story has choices, and one for the start.
-/

namespace Gamebook.Audit

open Relation (ReflTransGen)

/-! ## Edges -/

/-- Some choice leads from a room of the list to the next, whatever its weight. -/
def Edge (rooms : List Room) (id next : Text) : Prop :=
  ∃ r ∈ rooms, r.id = id ∧ next ∈ targets r

/-- The choices of rooms, in the order in which they are written. -/
def choices (rooms : List Room) : List Choice :=
  rooms.flatMap fun r => r.transitions.filterMap Transition.choice?

theorem mem_targets_iff {r : Room} {id : Text} :
    id ∈ targets r ↔ ∃ c, .choice c ∈ r.transitions ∧ c.target = id := by
  rw [targets, List.mem_map]
  constructor
  · rintro ⟨c, hc, htarget⟩
    exact ⟨c, Transition.mem_filterMap_choice?.mp hc, htarget⟩
  · rintro ⟨c, hc, htarget⟩
    exact ⟨c, Transition.mem_filterMap_choice?.mpr hc, htarget⟩

/-- Choices lead to a room from nowhere but rooms. -/
theorem start_mem_of_edges {rooms : List Room} {start id : Text}
    (h : ReflTransGen (Edge rooms) start id) (hid : id ∈ rooms.map (·.id)) :
    start ∈ rooms.map (·.id) := by
  rcases ReflTransGen.cases_head h with rfl | ⟨next, ⟨r, hr, rfl, -⟩, -⟩
  · exact hid
  · exact List.mem_map_of_mem hr

/-! ## One look -/

variable {rooms : List Room} {r : Room} {start id next : Text}

theorem mem_onwardIds (h : next ∈ onwardIds rooms id) :
    next ∈ rooms.map (·.id) ∧ Edge rooms id next := by
  unfold onwardIds at h
  split at h
  · cases h
  · rename_i r hfind
    obtain ⟨htarget, hnext⟩ := List.mem_filter.mp h
    exact ⟨of_decide_eq_true hnext, r, List.mem_of_find?_eq_some hfind,
      by simpa using List.find?_some hfind, htarget⟩

theorem mem_onwardIds_of_mem_targets (hnodup : (rooms.map (·.id)).Nodup) (hr : r ∈ rooms)
    (htarget : next ∈ targets r) (hnext : next ∈ rooms.map (·.id)) :
    next ∈ onwardIds rooms r.id := by
  rw [onwardIds, Room.find?_id_of_nodup hnodup hr]
  exact List.mem_filter.mpr ⟨htarget, decide_eq_true hnext⟩

namespace Search

variable {s : Search} {rest : List Text}

/-- The room has been seen, or it is pending. -/
def Knows (s : Search) (id : Text) : Prop := id ∈ s.seen ∨ id ∈ s.pending

/-- A look at a pending room passes it over or sees it. -/
theorem look_cases (rooms : List Room) (h : s.pending = id :: rest) :
    (id ∈ s.seen ∧ s.look rooms = ⟨s.seen, rest⟩) ∨
      (id ∉ s.seen ∧ s.look rooms = ⟨id :: s.seen, (onwardIds rooms id).reverse ++ rest⟩) := by
  unfold look
  simp only [h]
  by_cases hseen : id ∈ s.seen
  · exact .inl ⟨hseen, by rw [if_pos hseen]⟩
  · exact .inr ⟨hseen, by rw [if_neg hseen]⟩

/-- After a look at a room it has been seen, and so has what had been seen before. -/
theorem mem_seen_look_iff (h : s.pending = id :: rest) :
    next ∈ (s.look rooms).seen ↔ next ∈ s.seen ∨ next = id := by
  rcases look_cases rooms h with ⟨hseen, hlook⟩ | ⟨-, hlook⟩
  · rw [hlook]
    constructor
    · exact .inl
    · rintro (hnext | rfl)
      · exact hnext
      · exact hseen
  · rw [hlook, List.mem_cons, or_comm]

/-- A look makes known what the choices of a room lead to that it sees, and forgets nothing. -/
theorem knows_look_iff (h : s.pending = id :: rest) :
    (s.look rooms).Knows next ↔ s.Knows next ∨ (id ∉ s.seen ∧ next ∈ onwardIds rooms id) := by
  unfold Knows
  rcases look_cases rooms h with ⟨hseen, hlook⟩ | ⟨hnew, hlook⟩
  · rw [hlook, h, List.mem_cons]
    constructor
    · rintro (hnext | hnext)
      · exact .inl (.inl hnext)
      · exact .inl (.inr (.inr hnext))
    · rintro ((hnext | rfl | hnext) | ⟨hnew, -⟩)
      · exact .inl hnext
      · exact .inl hseen
      · exact .inr hnext
      · exact absurd hseen hnew
  · simp only [hlook, h, List.mem_cons, List.mem_append, List.mem_reverse, hnew,
      not_false_eq_true, true_and]
    constructor
    · rintro ((rfl | hnext) | hnext | hnext)
      · exact .inl (.inr (.inl rfl))
      · exact .inl (.inl hnext)
      · exact .inr hnext
      · exact .inl (.inr (.inr hnext))
    · rintro ((hnext | rfl | hnext) | hnext)
      · exact .inl (.inr hnext)
      · exact .inl (.inl rfl)
      · exact .inr (.inr hnext)
      · exact .inr (.inl hnext)

/-! ## What every search keeps -/

/-- What a search has seen, each room once, and what is pending are rooms to which choices lead
from the start. -/
structure Sound (rooms : List Room) (start : Text) (s : Search) : Prop where
  nodup : s.seen.Nodup
  room : ∀ id, s.Knows id → id ∈ rooms.map (·.id)
  reached : ∀ id, s.Knows id → ReflTransGen (Edge rooms) start id

/-- The start is known, if it is a room, and so is every room to which a choice leads from a
room that has been seen. -/
structure Closed (rooms : List Room) (start : Text) (s : Search) : Prop where
  start : start ∈ rooms.map (·.id) → s.Knows start
  onward : ∀ r ∈ rooms, r.id ∈ s.seen → ∀ next ∈ targets r, next ∈ rooms.map (·.id) → s.Knows next

theorem knows_start_iff : (Search.start rooms start).Knows id ↔
    id = start ∧ start ∈ rooms.map (·.id) := by
  unfold Knows Search.start
  split <;> simp_all

theorem sound_start (rooms : List Room) (start : Text) :
    (Search.start rooms start).Sound rooms start where
  nodup := List.nodup_nil
  room := by
    intro id h
    obtain ⟨rfl, hroom⟩ := knows_start_iff.mp h
    exact hroom
  reached := by
    intro id h
    obtain ⟨rfl, -⟩ := knows_start_iff.mp h
    exact .refl

theorem closed_start (rooms : List Room) (start : Text) :
    (Search.start rooms start).Closed rooms start where
  start hroom := knows_start_iff.mpr ⟨rfl, hroom⟩
  onward := by
    intro r _ hseen
    cases hseen

/-- A look keeps a search sound. -/
theorem Sound.look (h : s.Sound rooms start) (hpending : s.pending ≠ []) :
    (s.look rooms).Sound rooms start := by
  obtain ⟨id, rest, hcons⟩ := List.exists_cons_of_ne_nil hpending
  have hid : s.Knows id := .inr (hcons ▸ List.mem_cons_self)
  refine ⟨?_, ?_, ?_⟩
  · rcases look_cases rooms hcons with ⟨-, hlook⟩ | ⟨hnew, hlook⟩
    · rw [hlook]
      exact h.nodup
    · rw [hlook]
      exact List.nodup_cons.mpr ⟨hnew, h.nodup⟩
  · intro next hnext
    rcases (knows_look_iff hcons).mp hnext with hknown | ⟨-, honward⟩
    · exact h.room next hknown
    · exact (mem_onwardIds honward).1
  · intro next hnext
    rcases (knows_look_iff hcons).mp hnext with hknown | ⟨-, honward⟩
    · exact h.reached next hknown
    · exact (h.reached id hid).tail (mem_onwardIds honward).2

/-- A look keeps a search closed. -/
theorem Closed.look (hnodup : (rooms.map (·.id)).Nodup) (h : s.Closed rooms start)
    (hpending : s.pending ≠ []) : (s.look rooms).Closed rooms start := by
  obtain ⟨id, rest, hcons⟩ := List.exists_cons_of_ne_nil hpending
  refine ⟨fun hroom => (knows_look_iff hcons).mpr (.inl (h.start hroom)), ?_⟩
  intro r hr hseen next htarget hnext
  apply (knows_look_iff hcons).mpr
  by_cases hold : r.id ∈ s.seen
  · exact .inl (h.onward r hr hold next htarget hnext)
  · obtain rfl := ((mem_seen_look_iff hcons).mp hseen).resolve_left hold
    exact .inr ⟨hold, mem_onwardIds_of_mem_targets hnodup hr htarget hnext⟩

/-! ## The end of a search -/

theorem pending_finish (rooms : List Room) (s : Search) : (s.finish rooms).pending = [] := by
  fun_induction finish rooms s with
  | case1 s hend => exact hend
  | case2 s hpending ih => exact ih

/-- What each look keeps holds at the end. -/
theorem finish_induction {I : Search → Prop}
    (hlook : ∀ s, s.pending ≠ [] → I s → I (s.look rooms)) (h : I s) : I (s.finish rooms) := by
  fun_induction finish rooms s with
  | case1 s hend => exact h
  | case2 s hpending ih => exact ih (hlook s hpending h)

/-- A search ends after no more looks than its effort. -/
theorem exists_iterate_look (rooms : List Room) (s : Search) :
    ∃ looks ≤ s.effort rooms, (look rooms)^[looks] s = s.finish rooms := by
  fun_induction finish rooms s with
  | case1 s hend => exact ⟨0, Nat.zero_le _, rfl⟩
  | case2 s hpending ih =>
    obtain ⟨looks, hle, hlooks⟩ := ih
    have hlt : (s.look rooms).effort rooms < s.effort rooms := effort_look_lt hpending
    exact ⟨looks + 1, by omega, hlooks⟩

theorem choicesLeft_nil (rooms : List Room) : choicesLeft [] rooms = (choices rooms).length := by
  induction rooms with
  | nil => rfl
  | cons r rest ih =>
    rw [choicesLeft, if_neg List.not_mem_nil, ih, choices, choices, List.flatMap_cons,
      List.length_append, targets, List.length_map]

theorem effort_start_le (rooms : List Room) (start : Text) :
    (Search.start rooms start).effort rooms ≤ (choices rooms).length + 1 := by
  have hpending : (Search.start rooms start).pending.length ≤ 1 := by
    unfold Search.start
    split <;> simp
  have hleft : choicesLeft (Search.start rooms start).seen rooms = (choices rooms).length :=
    choicesLeft_nil rooms
  rw [effort, hleft]
  omega

end Search

/-! ## What is reached -/

theorem sound_finish (rooms : List Room) (start : Text) :
    ((Search.start rooms start).finish rooms).Sound rooms start :=
  Search.finish_induction (fun _ hpending h => h.look hpending) (Search.sound_start rooms start)

theorem closed_finish (hnodup : (rooms.map (·.id)).Nodup) (start : Text) :
    ((Search.start rooms start).finish rooms).Closed rooms start :=
  Search.finish_induction (fun _ hpending h => h.look hnodup hpending)
    (Search.closed_start rooms start)

/-- At the end all that is known has been seen. -/
theorem knows_finish_iff :
    ((Search.start rooms start).finish rooms).Knows id ↔ id ∈ reachable rooms start := by
  rw [Search.Knows, Search.pending_finish, reachable]
  simp

theorem edges_of_mem_reachable (h : id ∈ reachable rooms start) :
    ReflTransGen (Edge rooms) start id :=
  (sound_finish rooms start).reached id (knows_finish_iff.mpr h)

/-- In a list of rooms with ids of their own the search sees exactly the rooms to which
choices lead from the start, and none if the start is no room. -/
theorem mem_reachable_iff (hnodup : (rooms.map (·.id)).Nodup) :
    id ∈ reachable rooms start ↔
      id ∈ rooms.map (·.id) ∧ ReflTransGen (Edge rooms) start id := by
  have hclosed := closed_finish hnodup start
  constructor
  · intro h
    exact ⟨(sound_finish rooms start).room id (knows_finish_iff.mpr h), edges_of_mem_reachable h⟩
  · rintro ⟨hid, h⟩
    induction h with
    | refl => exact knows_finish_iff.mp (hclosed.start hid)
    | tail _ hedge ih =>
      obtain ⟨r, hr, rfl, htarget⟩ := hedge
      exact knows_finish_iff.mp
        (hclosed.onward r hr (ih (List.mem_map_of_mem hr)) _ htarget hid)

end Gamebook.Audit
