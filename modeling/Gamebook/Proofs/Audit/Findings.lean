import Gamebook.Proofs.Audit.Search
set_option autoImplicit false

/-!
# What an audit finds

An audit lists what it finds in parts: first what is wrong with weights, then with the
start, with the targets of choices and with what can be reached.  Here it is said for
findings of a kind when they are in the list.
-/

namespace Gamebook

open Relation (ReflTransGen)

/-- The finding is about the weights of the room with this id. -/
inductive Finding.AboutWeights (id : Text) : Finding → Prop where
  /-- one of the weights is no number -/
  | invalid (position : Nat) (weight : Text) : AboutWeights id (.invalidWeight id position weight)
  /-- the lot can never fall -/
  | stuck : AboutWeights id (.deadEnd id)

theorem Finding.AboutWeights.eq_of_deadEnd {id room : Text}
    (h : Finding.AboutWeights id (.deadEnd room)) : room = id := by
  cases h
  rfl

namespace Audit

/-! ## The parts -/

/-- What is wrong with the weights of a room names the room. -/
theorem aboutWeights_of_mem {r : Room} {found : List Finding} (h : auditWeights r = .ok found)
    {f : Finding} (hf : f ∈ found) : f.AboutWeights r.id := by
  unfold auditWeights at h
  split at h
  · cases h
  · rename_i ws hws
    cases h
    rcases List.mem_append.mp hf with hinvalid | hstuck
    · obtain ⟨⟨position, weight, n⟩, -, heq⟩ := List.mem_filterMap.mp hinvalid
      simp only [Option.ite_none_right_eq_some, Option.some.injEq] at heq
      exact heq.2 ▸ .invalid position weight
    · split at hstuck
      · exact List.mem_singleton.mp hstuck ▸ .stuck
      · cases hstuck

theorem exists_auditWeights_of_mem {rooms : List Room} {found : List Finding}
    (h : auditAllWeights rooms = .ok found) {f : Finding} (hf : f ∈ found) :
    ∃ r ∈ rooms, ∃ part, auditWeights r = .ok part ∧ f ∈ part := by
  obtain ⟨hrooms, rfl⟩ := eq_flatMap_of_auditAllWeights h
  obtain ⟨r, hr, hmem⟩ := List.mem_flatMap.mp hf
  exact ⟨r, hr, weightFindings r, hrooms r hr, hmem⟩

theorem exists_aboutWeights_of_mem {rooms : List Room} {found : List Finding}
    (h : auditAllWeights rooms = .ok found) {f : Finding} (hf : f ∈ found) :
    ∃ id, f.AboutWeights id := by
  obtain ⟨r, -, part, hpart, hmem⟩ := exists_auditWeights_of_mem h hf
  exact ⟨r.id, aboutWeights_of_mem hpart hmem⟩

theorem exists_missingTarget_of_mem {ids : List Text} {r : Room} {f : Finding}
    (h : f ∈ auditTargets ids r) : ∃ position target, f = .missingTarget r.id position target := by
  obtain ⟨⟨position, c⟩, -, heq⟩ := List.mem_filterMap.mp h
  simp only [Option.ite_none_left_eq_some, Option.some.injEq] at heq
  exact ⟨position, c.target, heq.2.symm⟩

theorem mem_ite_singleton_iff {P : Prop} [Decidable P] {f g : Finding} :
    (f ∈ if P then [g] else []) ↔ P ∧ f = g := by
  split <;> simp_all

theorem mem_auditStart_iff {ids : List Text} {start : Text} {f : Finding} :
    f ∈ auditStart ids start ↔ start ∉ ids ∧ f = .missingStart start := by
  rw [auditStart, ← ite_not, mem_ite_singleton_iff]

theorem mem_auditRooms_iff {ids reached : List Text} {f : Finding} :
    f ∈ auditRooms ids reached ↔ ∃ id ∈ ids, id ∉ reached ∧ f = .unreachable id := by
  rw [auditRooms, List.mem_map]
  constructor
  · rintro ⟨id, hid, rfl⟩
    obtain ⟨hmem, hnot⟩ := List.mem_filter.mp hid
    exact ⟨id, hmem, of_decide_eq_true hnot, rfl⟩
  · rintro ⟨id, hmem, hnot, rfl⟩
    exact ⟨id, List.mem_filter.mpr ⟨hmem, decide_eq_true hnot⟩, rfl⟩

/-- No room that is reached has nothing but an ending. -/
theorem any_ending_eq_false_iff {rooms : List Room} {reached : List Text} :
    (rooms.any fun r => r.id ∈ reached && (Transition.ending? r.transitions).isSome) = false ↔
      ∀ r ∈ rooms, r.id ∈ reached → Transition.ending? r.transitions = none := by
  simp [List.any_eq_false]

theorem mem_auditEnds_iff {rooms : List Room} {reached : List Text} {start : Text} {f : Finding} :
    f ∈ auditEnds rooms reached start ↔
      reached ≠ [] ∧ (∀ r ∈ rooms, r.id ∈ reached → Transition.ending? r.transitions = none) ∧
        f = .endless start := by
  rw [auditEnds, mem_ite_singleton_iff, ← any_ending_eq_false_iff, Bool.not_eq_true', and_assoc]

variable {s : Story} {start? : Option Text} {findings : List Finding}

/-- The findings of an audit part by part, when all rooms have ids of their own. -/
theorem eq_parts_of_audit (hnodup : s.ids.Nodup) (h : audit s start? = .ok findings) :
    ∃ weights, auditAllWeights s.rooms = .ok weights ∧
      findings = (weights ++ (auditStart s.ids (s.startId start?) ++
        s.rooms.flatMap (auditTargets s.ids))) ++
          (auditRooms s.ids (reachable s.rooms (s.startId start?)) ++
            auditEnds s.rooms (reachable s.rooms (s.startId start?)) (s.startId start?)) := by
  unfold audit at h
  rw [distinctRooms_of_nodup hnodup] at h
  split at h
  · cases h
  · rename_i weights hweights
    refine ⟨weights, hweights, ?_⟩
    simp only [Except.ok.injEq, List.append_assoc] at h ⊢
    exact h.symm

/-- The findings of an audit, first those about weights, and when one of the others is among
them. -/
theorem exists_parts_of_audit (hnodup : s.ids.Nodup) (h : audit s start? = .ok findings) :
    ∃ weights others, auditAllWeights s.rooms = .ok weights ∧ findings = weights ++ others ∧
      ∀ f, f ∈ others ↔
        (s.startId start? ∉ s.ids ∧ f = .missingStart (s.startId start?)) ∨
        (∃ r ∈ s.rooms, f ∈ auditTargets s.ids r) ∨
        (∃ id ∈ s.ids, id ∉ reachable s.rooms (s.startId start?) ∧ f = .unreachable id) ∨
        (reachable s.rooms (s.startId start?) ≠ [] ∧
          (∀ r ∈ s.rooms, r.id ∈ reachable s.rooms (s.startId start?) →
            Transition.ending? r.transitions = none) ∧
          f = .endless (s.startId start?)) := by
  obtain ⟨weights, hweights, hfindings⟩ := eq_parts_of_audit hnodup h
  rw [List.append_assoc, List.append_assoc] at hfindings
  refine ⟨weights, _, hweights, hfindings, fun f => ?_⟩
  simp only [List.mem_append]
  exact or_congr mem_auditStart_iff (or_congr List.mem_flatMap
    (or_congr mem_auditRooms_iff mem_auditEnds_iff))

/-! ## Errors and warnings -/

theorem severity_of_auditAllWeights {rooms : List Room} {found : List Finding}
    (h : auditAllWeights rooms = .ok found) : ∀ f ∈ found, f.severity = .error := by
  intro f hf
  obtain ⟨id, habout⟩ := exists_aboutWeights_of_mem h hf
  cases habout <;> rfl

theorem severity_of_auditStart (ids : List Text) (start : Text) :
    ∀ f ∈ auditStart ids start, f.severity = .error := by
  intro f hf
  exact (mem_auditStart_iff.mp hf).2 ▸ rfl

theorem severity_of_auditTargets (ids : List Text) (rooms : List Room) :
    ∀ f ∈ rooms.flatMap (auditTargets ids), f.severity = .error := by
  intro f hf
  obtain ⟨r, -, hf⟩ := List.mem_flatMap.mp hf
  obtain ⟨position, target, rfl⟩ := exists_missingTarget_of_mem hf
  rfl

theorem severity_of_auditRooms (ids reached : List Text) :
    ∀ f ∈ auditRooms ids reached, f.severity = .warning := by
  intro f hf
  obtain ⟨id, -, -, rfl⟩ := mem_auditRooms_iff.mp hf
  rfl

theorem severity_of_auditEnds (rooms : List Room) (reached : List Text) (start : Text) :
    ∀ f ∈ auditEnds rooms reached start, f.severity = .warning := by
  intro f hf
  obtain ⟨-, -, rfl⟩ := mem_auditEnds_iff.mp hf
  rfl

/-- The first parts of an audit are its errors, and the last ones are its warnings. -/
theorem filter_severity_of_audit (hnodup : s.ids.Nodup) (h : audit s start? = .ok findings) :
    ∃ weights, auditAllWeights s.rooms = .ok weights ∧
      findings.filter (·.severity = .error) = weights ++ (auditStart s.ids (s.startId start?) ++
        s.rooms.flatMap (auditTargets s.ids)) ∧
      findings.filter (·.severity = .warning) =
        auditRooms s.ids (reachable s.rooms (s.startId start?)) ++
          auditEnds s.rooms (reachable s.rooms (s.startId start?)) (s.startId start?) := by
  obtain ⟨weights, hweights, rfl⟩ := eq_parts_of_audit hnodup h
  have herrors : ∀ f ∈ weights ++ (auditStart s.ids (s.startId start?) ++
      s.rooms.flatMap (auditTargets s.ids)), f.severity = .error :=
    List.forall_mem_append.mpr ⟨severity_of_auditAllWeights hweights,
      List.forall_mem_append.mpr ⟨severity_of_auditStart _ _, severity_of_auditTargets _ _⟩⟩
  have hwarnings : ∀ f ∈ auditRooms s.ids (reachable s.rooms (s.startId start?)) ++
      auditEnds s.rooms (reachable s.rooms (s.startId start?)) (s.startId start?),
      f.severity = .warning :=
    List.forall_mem_append.mpr ⟨severity_of_auditRooms _ _, severity_of_auditEnds _ _ _⟩
  refine ⟨weights, hweights, ?_, ?_⟩
  · rw [List.filter_append, List.filter_eq_self.mpr fun f hf => decide_eq_true (herrors f hf),
      List.filter_eq_nil_iff.mpr fun f hf => by simp [hwarnings f hf], List.append_nil]
  · rw [List.filter_append, List.filter_eq_nil_iff.mpr fun f hf => by simp [herrors f hf],
      List.filter_eq_self.mpr fun f hf => decide_eq_true (hwarnings f hf), List.nil_append]

/-! ## Single warnings -/

/-- A room is reported as unreachable exactly if no choices lead to it from the start. -/
theorem unreachable_mem_iff (hnodup : s.ids.Nodup) (h : audit s start? = .ok findings) {id : Text} :
    .unreachable id ∈ findings ↔
      id ∈ s.ids ∧ ¬ ReflTransGen (Edge s.rooms) (s.startId start?) id := by
  obtain ⟨weights, others, hweights, rfl, hothers⟩ := exists_parts_of_audit hnodup h
  rw [List.mem_append, hothers]
  constructor
  · rintro (hweight | ⟨-, heq⟩ | ⟨r, -, htarget⟩ | ⟨id', hid, hnot, heq⟩ | ⟨-, -, heq⟩)
    · obtain ⟨room, habout⟩ := exists_aboutWeights_of_mem hweights hweight
      cases habout
    · cases heq
    · obtain ⟨position, target, heq⟩ := exists_missingTarget_of_mem htarget
      cases heq
    · obtain rfl := Finding.unreachable.inj heq
      exact ⟨hid, fun hreach => hnot ((mem_reachable_iff hnodup).mpr ⟨hid, hreach⟩)⟩
    · cases heq
  · rintro ⟨hid, hnot⟩
    exact .inr (.inr (.inr (.inl ⟨id, hid, fun hseen => hnot (edges_of_mem_reachable hseen), rfl⟩)))

/-- The search sees something exactly if the start is a room. -/
theorem reachable_ne_nil_iff (hnodup : s.ids.Nodup) {start : Text} :
    reachable s.rooms start ≠ [] ↔ start ∈ s.ids := by
  constructor
  · intro hne
    obtain ⟨id, hid⟩ := List.exists_mem_of_ne_nil _ hne
    obtain ⟨hmem, hreach⟩ := (mem_reachable_iff hnodup).mp hid
    exact start_mem_of_edges hreach hmem
  · intro hstart
    exact List.ne_nil_of_mem ((mem_reachable_iff hnodup).mpr ⟨hstart, .refl⟩)

/-- A story is reported as endless exactly if its start is a room and choices lead from
there to no room with nothing but an ending. -/
theorem endless_mem_iff (hnodup : s.ids.Nodup) (h : audit s start? = .ok findings) {id : Text} :
    .endless id ∈ findings ↔ id = s.startId start? ∧ id ∈ s.ids ∧
      ∀ r ∈ s.rooms, ReflTransGen (Edge s.rooms) id r.id →
        Transition.ending? r.transitions = none := by
  obtain ⟨weights, others, hweights, rfl, hothers⟩ := exists_parts_of_audit hnodup h
  rw [List.mem_append, hothers]
  constructor
  · rintro (hweight | ⟨-, heq⟩ | ⟨r, -, htarget⟩ | ⟨id', -, -, heq⟩ | ⟨hne, hends, heq⟩)
    · obtain ⟨room, habout⟩ := exists_aboutWeights_of_mem hweights hweight
      cases habout
    · cases heq
    · obtain ⟨position, target, heq⟩ := exists_missingTarget_of_mem htarget
      cases heq
    · cases heq
    · obtain rfl := Finding.endless.inj heq
      refine ⟨rfl, (reachable_ne_nil_iff hnodup).mp hne, ?_⟩
      intro r hr hreach
      exact hends r hr ((mem_reachable_iff hnodup).mpr ⟨List.mem_map_of_mem hr, hreach⟩)
  · rintro ⟨rfl, hid, hends⟩
    refine .inr (.inr (.inr (.inr ⟨(reachable_ne_nil_iff hnodup).mpr hid, ?_, rfl⟩)))
    intro r hr hseen
    exact hends r hr (edges_of_mem_reachable hseen)

end Audit

end Gamebook
