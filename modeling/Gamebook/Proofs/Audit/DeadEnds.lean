import Gamebook.Proofs.Audit.Findings
import Gamebook.Proofs.Audit.Overlong
import Gamebook.Proofs.Session.Moves
set_option autoImplicit false

/-!
# Dead ends

An audit and a play decide on their own that nothing leads out of a room: the one adds
the weights up, the other tries to draw a lot.  In a story that is read they agree, and
the audit reports each dead end once.
-/

namespace Gamebook

/-- All choices of the room are to be drawn by lot, and the lot never falls. -/
def Room.Stuck (r : Room) : Prop :=
  Transition.manual r.transitions = [] ∧ Transition.weighted r.transitions ≠ [] ∧
    Lot.NeverFalls (Transition.weighted r.transitions)

/-- A start that is asked for by a name is that room. -/
theorem Story.startId_of_ne_nil {s : Story} {id : Text} (h : id ≠ []) :
    s.startId (some id) = id := by
  cases id with
  | nil => exact absurd rfl h
  | cons c rest => rfl

namespace Audit

/-! ## Dead ends of an audit -/

/-- When some weight is no number, there are no weights to draw by. -/
theorem weights?_eq_none_of_forall₂ {ws : List (Nat × Text × Option Nat)} {cs : List Choice}
    (h : List.Forall₂ (fun e c => Choice.weight c = .ok e.2.2) ws cs)
    (hinvalid : ∃ e ∈ ws, e.2.2 = none) : Lot.weights? cs = .ok none := by
  induction h with
  | nil => simp at hinvalid
  | @cons e c ws cs hweight hrest ih =>
    obtain ⟨position, s, n⟩ := e
    rw [Lot.weights?, hweight]
    cases n with
    | none => rfl
    | some n =>
      have hmore : ∃ e ∈ ws, e.2.2 = none := by simpa using hinvalid
      simp only [ih hmore]

/-- The audit's sum of the weights tells whether the lot falls. -/
theorem neverFalls_iff {ws : List (Nat × Text × Option Nat)} {cs : List Choice}
    (h : List.Forall₂ (fun e c => Choice.weight c = .ok e.2.2) ws cs) :
    Lot.NeverFalls cs ↔
      (∃ e ∈ ws, e.2.2 = none) ∨ totalWeight (ws.map fun e => e.2.2.getD 0) < 1 := by
  unfold Lot.NeverFalls
  by_cases hinvalid : ∃ e ∈ ws, e.2.2 = none
  · simp [weights?_eq_none_of_forall₂ h hinvalid, hinvalid]
  · have hvalid : ∀ e ∈ ws, e.2.2 ≠ none := by
      intro e he hnone
      exact hinvalid ⟨e, he, hnone⟩
    simp [weights?_of_forall₂ h hvalid, hinvalid]

/-- The audit's test for a dead end. -/
theorem stuck_iff {r : Room} {ws : List (Nat × Text × Option Nat)}
    (h : List.Forall₂ (fun e c => Choice.weight c = .ok e.2.2) ws
      (Transition.weighted r.transitions)) :
    ((Transition.manual r.transitions).isEmpty && !ws.isEmpty
      && (ws.any (fun (_, _, n) => n.isNone) || totalWeight (ws.map fun (_, _, n) => n.getD 0) < 1))
        = true ↔ r.Stuck := by
  have hempty : ws = [] ↔ Transition.weighted r.transitions = [] := by
    rw [← List.length_eq_zero_iff, h.length_eq, List.length_eq_zero_iff]
  rw [Room.Stuck, neverFalls_iff h]
  simp [hempty, and_assoc]

/-- What is said of the weights of a room that are no numbers. -/
def invalidWeights (id : Text) (ws : List (Nat × Text × Option Nat)) : List Finding :=
  ws.filterMap fun (position, s, n) =>
    if n.isNone then some (.invalidWeight id position s) else none

theorem mem_invalidWeights_iff {id : Text} {ws : List (Nat × Text × Option Nat)} {f : Finding} :
    f ∈ invalidWeights id ws ↔
      ∃ position s, (position, s, none) ∈ ws ∧ f = .invalidWeight id position s := by
  rw [invalidWeights, List.mem_filterMap]
  constructor
  · rintro ⟨⟨position, s, n⟩, hmem, heq⟩
    cases n with
    | none => exact ⟨position, s, hmem, (Option.some.inj heq).symm⟩
    | some n => cases heq
  · rintro ⟨position, s, hmem, rfl⟩
    exact ⟨(position, s, none), hmem, rfl⟩

theorem deadEnd_not_mem_invalidWeights (id room : Text) (ws : List (Nat × Text × Option Nat)) :
    .deadEnd id ∉ invalidWeights room ws := by
  rw [mem_invalidWeights_iff]
  rintro ⟨position, s, -, heq⟩
  cases heq

/-- What is wrong with the weights of a room are the weights that are no numbers, and after
them, if the room is stuck, that it is a dead end. -/
theorem exists_weights_of_auditWeights {r : Room} {found : List Finding}
    (h : auditWeights r = .ok found) :
    ∃ ws, weightsOf (choicesFrom 0 r.transitions) = .ok ws ∧
      ((r.Stuck ∧ found = invalidWeights r.id ws ++ [.deadEnd r.id]) ∨
        (¬ r.Stuck ∧ found = invalidWeights r.id ws)) := by
  unfold auditWeights at h
  split at h
  · cases h
  · rename_i ws hws
    have hweights := weight_of_weightsOf hws
    rw [map_snd_choicesFrom] at hweights
    have hstuck := stuck_iff (r := r) hweights
    have hfound := Except.ok.inj h
    refine ⟨ws, hws, ?_⟩
    by_cases hr : r.Stuck
    · rw [if_pos (hstuck.mpr hr)] at hfound
      exact .inl ⟨hr, hfound.symm⟩
    · rw [if_neg (mt hstuck.mp hr), List.append_nil] at hfound
      exact .inr ⟨hr, hfound.symm⟩

theorem deadEnd_mem_auditWeights_iff {r : Room} {found : List Finding}
    (h : auditWeights r = .ok found) : .deadEnd r.id ∈ found ↔ r.Stuck := by
  obtain ⟨ws, -, ⟨hr, rfl⟩ | ⟨hr, rfl⟩⟩ := exists_weights_of_auditWeights h
  · simp [hr]
  · simp [hr, deadEnd_not_mem_invalidWeights]

theorem count_deadEnd_auditWeights_le {r : Room} {found : List Finding}
    (h : auditWeights r = .ok found) (id : Text) :
    found.count (.deadEnd id) ≤ if r.id = id then 1 else 0 := by
  obtain ⟨ws, -, ⟨-, rfl⟩ | ⟨-, rfl⟩⟩ := exists_weights_of_auditWeights h
  · rw [List.count_append, List.count_eq_zero_of_not_mem (deadEnd_not_mem_invalidWeights id _ _),
      Nat.zero_add, List.count_singleton]
    simp
  · rw [List.count_eq_zero_of_not_mem (deadEnd_not_mem_invalidWeights id _ _)]
    exact Nat.zero_le _

/-- A dead end is reported for no more rooms than have its id. -/
theorem count_deadEnd_auditAllWeights_le {rooms : List Room} {found : List Finding}
    (h : auditAllWeights rooms = .ok found) (id : Text) :
    found.count (.deadEnd id) ≤ (rooms.map (·.id)).count id := by
  induction rooms generalizing found with
  | nil =>
    cases h
    exact Nat.le_refl _
  | cons r rest ih =>
    obtain ⟨first, more, hfirst, hmore, rfl⟩ := exists_of_auditAllWeights_cons h
    have hhead := count_deadEnd_auditWeights_le hfirst id
    have htail := ih hmore
    rw [List.count_append, List.map_cons, List.count_cons]
    simp only [beq_iff_eq]
    omega

variable {s : Story} {start? : Option Text} {findings : List Finding}

/-- In a story whose rooms have ids of their own a room is reported as a dead end exactly
if it is stuck, and then once. -/
theorem deadEnd_mem_iff (hnodup : s.ids.Nodup) (h : audit s start? = .ok findings) {r : Room}
    (hr : r ∈ s.rooms) :
    (.deadEnd r.id ∈ findings ↔ r.Stuck) ∧ findings.count (.deadEnd r.id) ≤ 1 := by
  obtain ⟨weights, others, hweights, rfl, hothers⟩ := exists_parts_of_audit hnodup h
  have hnone : .deadEnd r.id ∉ others := by
    rw [hothers]
    rintro (⟨-, heq⟩ | ⟨r', -, htarget⟩ | ⟨id', -, -, heq⟩ | ⟨-, -, heq⟩)
    · cases heq
    · obtain ⟨position, target, heq⟩ := exists_missingTarget_of_mem htarget
      cases heq
    · cases heq
    · cases heq
  constructor
  · rw [List.mem_append, or_iff_left hnone]
    constructor
    · intro hmem
      obtain ⟨r', hr', part, hpart, hfound⟩ := exists_auditWeights_of_mem hweights hmem
      have hid : r.id = r'.id := (aboutWeights_of_mem hpart hfound).eq_of_deadEnd
      rw [hid] at hfound
      obtain rfl : r = r' := List.inj_on_of_nodup_map hnodup hr hr' hid
      exact (deadEnd_mem_auditWeights_iff hpart).mp hfound
    · intro hstuck
      obtain ⟨part, hpart, hsub⟩ := auditWeights_of_auditAllWeights hweights hr
      exact hsub _ ((deadEnd_mem_auditWeights_iff hpart).mpr hstuck)
  · rw [List.count_append, List.count_eq_zero_of_not_mem hnone, Nat.add_zero]
    exact (count_deadEnd_auditAllWeights_le hweights r.id).trans
      (List.nodup_iff_count_le_one.mp hnodup r.id)

end Audit

/-! ## Dead ends of a play -/

theorem Transition.ending?_eq_none {ts : List Transition} (h : ∀ t ∈ ts, t.isEnding = false) :
    Transition.ending? ts = none := by
  rw [Option.eq_none_iff_forall_ne_some]
  intro outcome hsome
  cases h (.ending outcome) (by simp [Transition.ending?_eq_some_iff.mp hsome])

/-- A lawful room is stuck exactly if no ending leads out of it, the reader has no choice,
and the lot never falls. -/
theorem Room.stuck_iff {r : Room} (hunmixed : Transition.Unmixed r.transitions)
    (hne : r.transitions ≠ []) :
    r.Stuck ↔ Transition.ending? r.transitions = none ∧ Transition.manual r.transitions = [] ∧
      Lot.NeverFalls (Transition.weighted r.transitions) := by
  unfold Stuck
  rcases hunmixed with ⟨outcome, halone⟩ | hchoices
  · simp [halone, Transition.ending?, Transition.weighted, Transition.choice?]
  · have hending := Transition.ending?_eq_none hchoices
    constructor
    · rintro ⟨hmanual, -, hnever⟩
      exact ⟨hending, hmanual, hnever⟩
    · rintro ⟨-, hmanual, hnever⟩
      exact ⟨hmanual, fun hnil => Audit.manual_ne_nil hchoices hne hnil hmanual, hnever⟩

/-- However fair dice fall, a session meets a dead end in a room exactly if no ending leads
out of it, the reader has no choice, and the lot never falls. -/
theorem Session.advance_eq_deadEnd_iff {σ : Type} {dice : Dice σ} (hdice : dice.Fair)
    {s : Session σ} {r : Room} (hroom : s.room = .ok r) {id : Text} :
    (s.advance dice).1 = .error (.deadEnd id) ↔
      id = r.id ∧ Transition.ending? r.transitions = none ∧
        Transition.manual r.transitions = [] ∧
        Lot.NeverFalls (Transition.weighted r.transitions) := by
  rw [← Lot.draw_eq_ok_none_iff hdice s.luck]
  unfold advance
  simp only [hroom]
  cases hending : Transition.ending? r.transitions with
  | some outcome => simp
  | none =>
    rcases Lot.draw dice r.transitions s.luck with ⟨result, luck⟩
    cases result with
    | error e => simp
    | ok target? =>
      cases target? with
      | some target => simp
      | none =>
        by_cases hmanual : Transition.manual r.transitions = [] <;> simp [hmanual, eq_comm]

/-- A play of a lawful story that starts in a room of it stands in this room. -/
theorem Story.Lawful.room_start {P : Char → Prop} {story : Story} (h : story.Lawful P) {r : Room}
    (hr : r ∈ story.rooms) {σ : Type} (source? : Option Text) (luck : σ) :
    (Session.start story source? (some r.id) luck).room = .ok r := by
  refine Session.room_of_find? ?_ (Room.find?_id_of_nodup h.ids_nodup hr)
  rw [Session.start, Story.startId_of_ne_nil (h.rooms r hr).id.ne_nil]

/-- When a story is read whose weights are short, an audit of it answers, wherever it is
started, and reports a room as a dead end exactly if a play that starts in this room meets
one at once, whatever fair dice do; then it is reported exactly once, and it is this room
that the play names. -/
theorem deadEnd_mem_iff_advance {m : Markers} {raw : List Text} {story : Story}
    (hread : Story.read m raw = .ok story) (hshort : story.HasShortWeights)
    (start? : Option Text) :
    ∃ findings, audit story start? = .ok findings ∧ ∀ r ∈ story.rooms,
      (.deadEnd r.id ∈ findings ↔ findings.count (.deadEnd r.id) = 1) ∧
      ∀ {σ : Type} (dice : Dice σ), dice.Fair → ∀ source? luck id,
        ((Session.start story source? (some r.id) luck).advance dice).1 = .error (.deadEnd id) ↔
          id = r.id ∧ .deadEnd r.id ∈ findings := by
  have hlawful : story.Lawful fun _ => True :=
    Story.lawful_of_read hread fun _ _ _ _ => trivial
  obtain ⟨findings, hfindings⟩ := Audit.exists_audit hshort start?
  refine ⟨findings, hfindings, fun r hr => ?_⟩
  obtain ⟨hmem, hcount⟩ := Audit.deadEnd_mem_iff hlawful.ids_nodup hfindings hr
  refine ⟨?_, ?_⟩
  · rw [← List.count_pos_iff]
    omega
  · intro σ dice hdice source? luck id
    have hroom := hlawful.room_start hr source? luck
    rw [Session.advance_eq_deadEnd_iff hdice hroom, hmem,
      Room.stuck_iff (hlawful.rooms r hr).unmixed (hlawful.transitions_ne_nil r hr)]

namespace Pit

/-- Out of the pit lead only lots that never fall. -/
def story : Story where
  rooms := [
    ⟨"pit".toList, [], [],
      [.choice ⟨"Climb".toList, "exit".toList, some "0".toList⟩,
        .choice ⟨"Jump".toList, "exit".toList, some "-1".toList⟩]⟩,
    ⟨"exit".toList, [], [], [.ending .success]⟩]
  rooms_ne_nil := List.cons_ne_nil _ _

/-- The lines that the story is read from. -/
def lines : List Text :=
  ["Rpit:".toList, ";;;".toList, ":Climb -> exit?0".toList, ":Jump -> exit?-1".toList,
    "Rexit:".toList, ";;;".toList, "=)".toList]

theorem hasShortWeights : story.HasShortWeights :=
  Story.hasShortWeights_of_isOk (by decide +kernel)

end Pit

/-- The pit is reported once and stops every play, and the exit does neither. -/
theorem deadEnd_mem_iff_advance_pit :
    ∃ findings, audit Pit.story none = .ok findings ∧
      findings.count (.deadEnd "pit".toList) = 1 ∧ .deadEnd "exit".toList ∉ findings ∧
      ((Session.start Pit.story none (some "pit".toList) ()).advance .zero).1 =
        .error (.deadEnd "pit".toList) := by
  have hread : Story.read .standard Pit.lines = .ok Pit.story := rfl
  obtain ⟨findings, hfindings, hrooms⟩ :=
    deadEnd_mem_iff_advance hread Pit.hasShortWeights none
  have hstops : ((Session.start Pit.story none (some "pit".toList) ()).advance .zero).1 =
      .error (.deadEnd "pit".toList) := by decide +kernel
  obtain ⟨honce, hpit⟩ := hrooms _ List.mem_cons_self
  obtain ⟨-, hexit⟩ := hrooms _ (List.mem_cons_of_mem _ List.mem_cons_self)
  refine ⟨findings, hfindings, honce.mp ?_, ?_, hstops⟩
  · exact ((hpit .zero Dice.zero_fair none () _).mp hstops).2
  · intro hmem
    cases (hexit .zero Dice.zero_fair none () _).mpr ⟨rfl, hmem⟩

end Gamebook
