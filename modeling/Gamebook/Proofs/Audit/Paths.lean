import Gamebook.Proofs.Audit.Findings
import Gamebook.Proofs.Session.Moves
set_option autoImplicit false

/-!
# Paths through a story

A path of choices leads from room to room of a story.  The search of an audit ends, and then it
has seen exactly the rooms to which there is a path from the start; so the warnings of an audit
are about paths and can be told without any search.
-/

namespace Gamebook

open Relation (ReflTransGen)

/-! ## Paths and the search -/

/-- Choices lead from a room of the story to another one through rooms of the story, or nowhere
further. -/
inductive Story.Path (s : Story) : Text → Text → Prop where
  /-- the path is empty -/
  | stay {id : Text} (room : id ∈ s.ids) : Story.Path s id id
  /-- the path starts with a choice of its first room -/
  | go {r : Room} {c : Choice} {last : Text} (room : r ∈ s.rooms)
      (way : .choice c ∈ r.transitions) (onward : Story.Path s c.target last) :
      Story.Path s r.id last

namespace Story

variable {s : Story} {root id : Text}

theorem path_iff_edges : s.Path root id ↔
    id ∈ s.ids ∧ ReflTransGen (Audit.Edge s.rooms) root id := by
  constructor
  · intro h
    induction h with
    | stay room => exact ⟨room, .refl⟩
    | go room way onward ih =>
      exact ⟨ih.1, .head ⟨_, room, rfl, Audit.mem_targets_iff.mpr ⟨_, way, rfl⟩⟩ ih.2⟩
  · rintro ⟨hid, h⟩
    induction h using ReflTransGen.head_induction_on with
    | refl => exact .stay hid
    | head hedge _ ih =>
      obtain ⟨r, hr, rfl, htarget⟩ := hedge
      obtain ⟨c, hc, rfl⟩ := Audit.mem_targets_iff.mp htarget
      exact .go hr hc ih

theorem Path.first_mem (h : s.Path root id) : root ∈ s.ids := by
  cases h with
  | stay room => exact room
  | go room => exact List.mem_map_of_mem room

end Story

namespace Audit

variable {s : Story} {root id : Text}

theorem mem_reachable_iff_path (hnodup : s.ids.Nodup) :
    id ∈ reachable s.rooms root ↔ s.Path root id :=
  (mem_reachable_iff hnodup).trans Story.path_iff_edges.symm

theorem reachable_eq_nil (hnodup : s.ids.Nodup) (h : root ∉ s.ids) :
    reachable s.rooms root = [] :=
  List.eq_nil_iff_forall_not_mem.mpr fun _ hid =>
    h ((mem_reachable_iff_path hnodup).mp hid).first_mem

/-- The search from a start needs no more looks than the story has choices, and one more. -/
theorem exists_looks (rooms : List Room) (root : Text) :
    ∃ looks ≤ (choices rooms).length + 1,
      (Search.look rooms)^[looks] (.start rooms root) = ⟨reachable rooms root, []⟩ := by
  obtain ⟨looks, hle, hlooks⟩ := Search.exists_iterate_look rooms (.start rooms root)
  refine ⟨looks, hle.trans (Search.effort_start_le rooms root), hlooks.trans ?_⟩
  rw [← Search.pending_finish rooms (.start rooms root), reachable]

end Audit

/-! ## Warnings -/

/-- The room is one of the story, and paths lead from it to no room with nothing but an
ending. -/
def Story.Endless (s : Story) (root : Text) : Prop :=
  root ∈ s.ids ∧ ∀ r ∈ s.rooms, s.Path root r.id → ∀ outcome, r.transitions ≠ [.ending outcome]

/-- The room that a warning says cannot be reached. -/
def Finding.unreachable? : Finding → Option Text
  | .unreachable id => some id
  | _ => none

/-- The start from which a warning says that the story has no end. -/
def Finding.endless? : Finding → Option Text
  | .endless start => some start
  | _ => none

namespace Audit

variable {s : Story} {start? : Option Text} {findings : List Finding}

theorem auditEnds_of_endless (hnodup : s.ids.Nodup) {root : Text} (h : s.Endless root) :
    auditEnds s.rooms (reachable s.rooms root) root = [.endless root] := by
  obtain ⟨hroot, hends⟩ := h
  rw [auditEnds, if_pos]
  rw [Bool.not_eq_true', any_ending_eq_false_iff]
  refine ⟨(reachable_ne_nil_iff hnodup).mpr hroot, ?_⟩
  intro r hr hseen
  rw [Option.eq_none_iff_forall_ne_some]
  intro outcome hsome
  exact hends r hr ((mem_reachable_iff_path hnodup).mp hseen) outcome
    (Transition.ending?_eq_some_iff.mp hsome)

theorem auditEnds_of_not_endless (hnodup : s.ids.Nodup) {root : Text} (h : ¬ s.Endless root) :
    auditEnds s.rooms (reachable s.rooms root) root = [] := by
  rw [auditEnds, if_neg]
  rintro ⟨hne, hends⟩
  rw [Bool.not_eq_true', any_ending_eq_false_iff] at hends
  refine h ⟨(reachable_ne_nil_iff hnodup).mp hne, ?_⟩
  intro r hr hpath outcome halone
  have hnone := hends r hr ((mem_reachable_iff_path hnodup).mpr hpath)
  rw [halone] at hnone
  cases hnone

/-- What is picked from warnings only is picked from the last two parts of an audit. -/
theorem filterMap_of_audit (hnodup : s.ids.Nodup) (h : audit s start? = .ok findings)
    {pick : Finding → Option Text} (hpick : ∀ f, f.severity = .error → pick f = none) :
    findings.filterMap pick =
      (auditRooms s.ids (reachable s.rooms (s.startId start?))).filterMap pick ++
        (auditEnds s.rooms (reachable s.rooms (s.startId start?)) (s.startId start?)).filterMap
          pick := by
  obtain ⟨-, -, -, hwarnings⟩ := filter_severity_of_audit hnodup h
  rw [← List.filterMap_append, ← hwarnings, List.filterMap_filter]
  apply List.filterMap_congr
  intro f _
  cases hf : f.severity with
  | warning => rfl
  | error => exact hpick f hf

theorem unreachable?_of_severity {f : Finding} (h : f.severity = .error) :
    f.unreachable? = none := by
  cases f <;> first | rfl | cases h

theorem endless?_of_severity {f : Finding} (h : f.severity = .error) : f.endless? = none := by
  cases f <;> first | rfl | cases h

theorem filterMap_unreachable?_auditEnds (rooms : List Room) (reached : List Text) (start : Text) :
    (auditEnds rooms reached start).filterMap Finding.unreachable? = [] := by
  rw [auditEnds]
  split <;> rfl

theorem filterMap_endless?_auditRooms (ids reached : List Text) :
    (auditRooms ids reached).filterMap Finding.endless? = [] := by
  rw [auditRooms, List.filterMap_map]
  exact List.filterMap_eq_nil_iff.mpr fun _ _ => rfl

/-- The rooms that are reported as unreachable, in order. -/
theorem filterMap_unreachable? (hnodup : s.ids.Nodup) (h : audit s start? = .ok findings) :
    findings.filterMap Finding.unreachable? =
      s.ids.filter (· ∉ reachable s.rooms (s.startId start?)) := by
  rw [filterMap_of_audit hnodup h fun _ hf => unreachable?_of_severity hf,
    filterMap_unreachable?_auditEnds, List.append_nil, auditRooms, List.filterMap_map]
  exact List.filterMap_some

/-- The starts from which the story is reported as endless. -/
theorem filterMap_endless? (hnodup : s.ids.Nodup) (h : audit s start? = .ok findings) :
    findings.filterMap Finding.endless? =
      (auditEnds s.rooms (reachable s.rooms (s.startId start?)) (s.startId start?)).filterMap
        Finding.endless? := by
  rw [filterMap_of_audit hnodup h fun _ hf => endless?_of_severity hf,
    filterMap_endless?_auditRooms, List.nil_append]

end Audit

/-- In a story whose rooms have ids of their own, a search from any start ends, after no more
looks than there are choices and one more.  What it has seen then, each room once, are exactly the
rooms to which paths lead, and none if the start is no room.  So an audit reports as unreachable
exactly the rooms to which no path leads from its start, each once and in the order of the story,
and it reports, once, that the story is endless exactly if the start is a room from which no path
leads to a room with nothing but an ending. -/
theorem search_finds_paths {s : Story} (hnodup : s.ids.Nodup) :
    (∀ root,
      (∃ looks ≤ (Audit.choices s.rooms).length + 1,
        (Audit.Search.look s.rooms)^[looks] (.start s.rooms root) =
          ⟨Audit.reachable s.rooms root, []⟩) ∧
      (Audit.reachable s.rooms root).Nodup ∧
      (∀ id, id ∈ Audit.reachable s.rooms root ↔ s.Path root id) ∧
      (root ∉ s.ids → Audit.reachable s.rooms root = [])) ∧
    ∀ start? findings, audit s start? = .ok findings →
      (findings.filterMap Finding.unreachable?).Sublist s.ids ∧
      (∀ id, id ∈ findings.filterMap Finding.unreachable? ↔
        id ∈ s.ids ∧ ¬ s.Path (s.startId start?) id) ∧
      (s.Endless (s.startId start?) →
        findings.filterMap Finding.endless? = [s.startId start?]) ∧
      (¬ s.Endless (s.startId start?) → findings.filterMap Finding.endless? = []) := by
  refine ⟨fun root => ⟨Audit.exists_looks s.rooms root, (Audit.sound_finish s.rooms root).nodup,
    fun _ => Audit.mem_reachable_iff_path hnodup, Audit.reachable_eq_nil hnodup⟩, ?_⟩
  intro start? findings haudit
  rw [Audit.filterMap_unreachable? hnodup haudit, Audit.filterMap_endless? hnodup haudit]
  refine ⟨List.filter_sublist, fun id => ?_, fun hends => ?_, fun hends => ?_⟩
  · rw [List.mem_filter, decide_eq_true_iff, Audit.mem_reachable_iff_path hnodup]
  · rw [Audit.auditEnds_of_endless hnodup hends]
    rfl
  · rw [Audit.auditEnds_of_not_endless hnodup hends]
    rfl

/-- In the maze the garden is ahead and the gate behind; the shed is no room, so that nothing
can be reached from there. -/
theorem search_finds_paths_crossroads :
    Crossroads.story.ids.Nodup ∧
      Crossroads.story.Path "maze".toList "garden".toList ∧
      ¬ Crossroads.story.Path "maze".toList "gate".toList ∧
      Audit.reachable Crossroads.story.rooms "shed".toList = [] ∧
      ∃ findings, audit Crossroads.story (some "maze".toList) = .ok findings ∧
        "gate".toList ∈ findings.filterMap Finding.unreachable? ∧
        findings.filterMap Finding.endless? = [] := by
  have hnodup : Crossroads.story.ids.Nodup := by decide
  obtain ⟨hsearch, hwarnings⟩ := search_finds_paths hnodup
  obtain ⟨-, -, hmaze, -⟩ := hsearch "maze".toList
  obtain ⟨-, -, -, hshed⟩ := hsearch "shed".toList
  have hahead : Crossroads.story.Path "maze".toList "garden".toList :=
    (hmaze _).mp (by decide +kernel)
  have hbehind : ¬ Crossroads.story.Path "maze".toList "gate".toList :=
    mt (hmaze _).mpr (by decide +kernel)
  obtain ⟨findings, hfindings⟩ :
      ∃ findings, audit Crossroads.story (some "maze".toList) = .ok findings := ⟨_, rfl⟩
  obtain ⟨-, hunreachable, -, hends⟩ := hwarnings _ findings hfindings
  have hends : findings.filterMap Finding.endless? = [] := by
    refine hends fun hendless => ?_
    exact hendless.2 ⟨"garden".toList, [], [], [.ending .success]⟩ (by decide) hahead .success rfl
  exact ⟨hnodup, hahead, hbehind, hshed (by decide), findings, hfindings,
    (hunreachable _).mpr ⟨by decide, hbehind⟩, hends⟩

end Gamebook
