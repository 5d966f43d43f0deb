import Gamebook.CommandLine
import Gamebook.Proofs.Audit.DeadEnds
import Gamebook.Proofs.Console.Opening
import Gamebook.Proofs.Lot.Law
set_option autoImplicit false

/-!
# Errors and defects

The defects of a story can be told from its rooms alone: a weight that is no number, a room
whose choices are all drawn by a lot that never falls, a start that is no room, and a choice
that leads to no room.  The errors of an audit are the defects of the story, each of them once,
and those of a kind stand in the order in which the story is written.  So the program ends well
after an audit exactly if the story has none.
-/

namespace Gamebook

/-! ## Defects -/

/-- What is wrong with a story that is started in a room. -/
inductive Story.Defect (s : Story) (start : Text) : Finding → Prop where
  /-- A choice is weighted, but its weight is no natural number. -/
  | invalidWeight {r : Room} {position : Nat} {c : Choice} {text : Text} (room : r ∈ s.rooms)
      (choice : r.transitions[position]? = some (.choice c)) (written : c.weightText? = some text)
      (invalid : c.weight = .ok none) : Defect s start (.invalidWeight r.id position text)
  /-- All choices of a room are weighted, and one of the weights is invalid, or they add up to
  nothing. -/
  | deadEnd {r : Room} (room : r ∈ s.rooms) (manual : Transition.manual r.transitions = [])
      (weighted : Transition.weighted r.transitions ≠ [])
      (never : (∃ c ∈ Transition.weighted r.transitions, c.weight = .ok none) ∨
        ∃ ws, List.Forall₂ (fun c w => c.weight = .ok (some w))
          (Transition.weighted r.transitions) ws ∧ totalWeight ws = 0) :
      Defect s start (.deadEnd r.id)
  /-- The start is no room. -/
  | missingStart (missing : start ∉ s.ids) : Defect s start (.missingStart start)
  /-- A choice leads to no room. -/
  | missingTarget {r : Room} {position : Nat} {c : Choice} (room : r ∈ s.rooms)
      (choice : r.transitions[position]? = some (.choice c)) (missing : c.target ∉ s.ids) :
      Defect s start (.missingTarget r.id position c.target)

/-- When all weights are short, a room is stuck exactly if it is a dead end. -/
theorem Room.stuck_iff_of_isShort {r : Room}
    (hshort : ∀ c, .choice c ∈ r.transitions → c.IsShort) :
    r.Stuck ↔ Transition.manual r.transitions = [] ∧ Transition.weighted r.transitions ≠ [] ∧
      ((∃ c ∈ Transition.weighted r.transitions, c.weight = .ok none) ∨
        ∃ ws, List.Forall₂ (fun c w => c.weight = .ok (some w))
          (Transition.weighted r.transitions) ws ∧ totalWeight ws = 0) := by
  have hweighted : ∀ c ∈ Transition.weighted r.transitions, c.IsShort := fun c hc =>
    hshort c (Transition.mem_filterMap_choice?.mp (List.mem_of_mem_filter hc))
  simp only [Room.Stuck, Lot.NeverFalls, Lot.weights?_eq_ok_none_iff hweighted,
    Lot.weights?_eq_ok_some_iff, Nat.lt_one_iff]

namespace Finding

/-- The room that a finding is about. -/
def room : Finding → Text
  | .invalidWeight room .. | .missingTarget room .. => room
  | .deadEnd room | .missingStart room | .unreachable room | .endless room => room

/-- The position of the transition that a finding is about, or zero if it is about no single
one. -/
def position : Finding → Nat
  | .invalidWeight _ position _ | .missingTarget _ position _ => position
  | _ => 0

/-- A finding is about an earlier place of the file than another one: about an earlier room, or
an earlier transition of the same room. -/
def Before (ids : List Text) (f g : Finding) : Prop :=
  ids.idxOf f.room < ids.idxOf g.room ∨ f.room = g.room ∧ f.position < g.position

theorem Before.ne {ids : List Text} {f g : Finding} (h : f.Before ids g) : f ≠ g := by
  rintro rfl
  rcases h with hroom | ⟨-, hposition⟩
  · exact Nat.lt_irrefl _ hroom
  · exact Nat.lt_irrefl _ hposition

theorem code_invalidWeight_ne (room other weight : Text) (position : Nat) :
    (invalidWeight room position weight).code ≠ (deadEnd other).code := by
  show "INVALID_WEIGHT".toList ≠ "DEAD_END".toList
  decide

theorem code_missingStart_ne (room other target : Text) (position : Nat) :
    (missingStart room).code ≠ (missingTarget other position target).code := by
  show "MISSING_START_ROOM".toList ≠ "MISSING_ROOM_REF".toList
  decide

theorem AboutWeights.code_ne_missingStart {id : Text} {f : Finding} (h : f.AboutWeights id)
    (room : Text) : f.code ≠ (missingStart room).code := by
  cases h with
  | invalid position weight =>
    show "INVALID_WEIGHT".toList ≠ "MISSING_START_ROOM".toList
    decide
  | stuck =>
    show "DEAD_END".toList ≠ "MISSING_START_ROOM".toList
    decide

theorem AboutWeights.code_ne_missingTarget {id : Text} {f : Finding} (h : f.AboutWeights id)
    (room target : Text) (position : Nat) : f.code ≠ (missingTarget room position target).code := by
  cases h with
  | invalid position weight =>
    show "INVALID_WEIGHT".toList ≠ "MISSING_ROOM_REF".toList
    decide
  | stuck =>
    show "DEAD_END".toList ≠ "MISSING_ROOM_REF".toList
    decide

theorem AboutWeights.room_eq {id : Text} {f : Finding} (h : f.AboutWeights id) : f.room = id := by
  cases h <;> rfl

end Finding

namespace Audit

/-! ## Positions -/

/-- The entry of a transition that is a choice. -/
def entryOf? (e : Transition × Nat) : Option (Nat × Choice) := e.1.choice?.map (e.2, ·)

theorem entryOf?_eq_some_iff {e : Transition × Nat} {position : Nat} {c : Choice} :
    entryOf? e = some (position, c) ↔ e = (.choice c, position) := by
  obtain ⟨t, i⟩ := e
  cases t with
  | ending outcome => simp [entryOf?, Transition.choice?]
  | choice d => simp [entryOf?, Transition.choice?, and_comm]

/-- Positions count all transitions. -/
theorem choicesFrom_eq_filterMap_zipIdx (ts : List Transition) (first : Nat) :
    choicesFrom first ts = (ts.zipIdx first).filterMap entryOf? := by
  induction ts generalizing first with
  | nil => rfl
  | cons t rest ih =>
    rw [List.zipIdx_cons, List.filterMap_cons, ← ih]
    cases t <;> rfl

theorem mem_choicesFrom_iff {ts : List Transition} {position : Nat} {c : Choice} :
    (position, c) ∈ choicesFrom 0 ts ↔ ts[position]? = some (.choice c) := by
  simp only [choicesFrom_eq_filterMap_zipIdx, List.mem_filterMap, entryOf?_eq_some_iff,
    exists_eq_right, List.mk_mem_zipIdx_iff_getElem?]

theorem pairwise_choicesFrom (ts : List Transition) (first : Nat) :
    (choicesFrom first ts).Pairwise fun a b => a.1 < b.1 := by
  have hpositions : (ts.zipIdx first).Pairwise fun a b => a.2 < b.2 := by
    rw [← List.pairwise_map, List.zipIdx_map_snd]
    exact List.pairwise_lt_range' 1
  rw [choicesFrom_eq_filterMap_zipIdx, List.pairwise_filterMap]
  refine hpositions.imp ?_
  rintro a b hlt ⟨i, c⟩ ha ⟨j, d⟩ hb
  rw [entryOf?_eq_some_iff.mp ha, entryOf?_eq_some_iff.mp hb] at hlt
  exact hlt

/-! ## The parts of an audit -/

theorem mem_weightsOf_iff {entries : List (Nat × Choice)} {ws : List (Nat × Text × Option Nat)}
    (h : weightsOf entries = .ok ws) {position : Nat} {s : Text} {n : Option Nat} :
    (position, s, n) ∈ ws ↔
      ∃ c, (position, c) ∈ entries ∧ c.weightText? = some s ∧ c.weight = .ok n := by
  induction entries generalizing ws with
  | nil =>
    cases h
    simp
  | cons entry rest ih =>
    obtain ⟨first, d⟩ := entry
    rcases weightsOf_cons_eq_ok_iff.mp h with ⟨hnone, hrest⟩ | ⟨t, m, more, hsome, hm, hrest, rfl⟩
    · rw [ih hrest]
      constructor
      · rintro ⟨c, hc, hweight⟩
        exact ⟨c, List.mem_cons_of_mem _ hc, hweight⟩
      · rintro ⟨c, hc, htext, hn⟩
        rcases List.mem_cons.mp hc with heq | hc
        · cases heq
          cases hnone.symm.trans htext
        · exact ⟨c, hc, htext, hn⟩
    · rw [List.mem_cons, ih hrest]
      constructor
      · rintro (heq | ⟨c, hc, hweight⟩)
        · cases heq
          exact ⟨d, List.mem_cons_self, hsome, hm⟩
        · exact ⟨c, List.mem_cons_of_mem _ hc, hweight⟩
      · rintro ⟨c, hc, htext, hn⟩
        rcases List.mem_cons.mp hc with heq | hc
        · cases heq
          cases hsome.symm.trans htext
          cases hm.symm.trans hn
          exact .inl rfl
        · exact .inr ⟨c, hc, htext, hn⟩

theorem sublist_of_weightsOf {entries : List (Nat × Choice)} {ws : List (Nat × Text × Option Nat)}
    (h : weightsOf entries = .ok ws) : (ws.map Prod.fst).Sublist (entries.map Prod.fst) := by
  induction entries generalizing ws with
  | nil =>
    cases h
    exact .slnil
  | cons entry rest ih =>
    rcases weightsOf_cons_eq_ok_iff.mp h with ⟨-, hrest⟩ | ⟨t, m, more, -, -, hrest, rfl⟩
    · exact (ih hrest).cons _
    · exact (ih hrest).cons_cons _

theorem mem_auditWeights_iff {r : Room} {found : List Finding} (h : auditWeights r = .ok found)
    {f : Finding} : f ∈ found ↔
      (∃ position c s, r.transitions[position]? = some (.choice c) ∧ c.weightText? = some s ∧
        c.weight = .ok none ∧ f = .invalidWeight r.id position s) ∨
      (r.Stuck ∧ f = .deadEnd r.id) := by
  obtain ⟨ws, hws, hfound⟩ := exists_weights_of_auditWeights h
  have hinvalid : f ∈ invalidWeights r.id ws ↔
      ∃ position c s, r.transitions[position]? = some (.choice c) ∧ c.weightText? = some s ∧
        c.weight = .ok none ∧ f = .invalidWeight r.id position s := by
    simp only [mem_invalidWeights_iff, mem_weightsOf_iff hws, mem_choicesFrom_iff]
    constructor
    · rintro ⟨position, s, ⟨c, hc, htext, hn⟩, rfl⟩
      exact ⟨position, c, s, hc, htext, hn, rfl⟩
    · rintro ⟨position, c, s, hc, htext, hn, rfl⟩
      exact ⟨position, s, ⟨c, hc, htext, hn⟩, rfl⟩
  rw [← hinvalid]
  rcases hfound with ⟨hstuck, rfl⟩ | ⟨hstuck, rfl⟩
  · rw [List.mem_append, List.mem_singleton, and_iff_right hstuck]
  · rw [or_iff_left fun hboth => hstuck hboth.1]

theorem mem_auditTargets_iff {ids : List Text} {r : Room} {f : Finding} :
    f ∈ auditTargets ids r ↔
      ∃ position c, r.transitions[position]? = some (.choice c) ∧ c.target ∉ ids ∧
        f = .missingTarget r.id position c.target := by
  simp only [auditTargets, List.mem_filterMap, Prod.exists, mem_choicesFrom_iff,
    Option.ite_none_left_eq_some, Option.some.injEq, @eq_comm _ _ f]

/-! ## Order -/

theorem pairwise_idxOf {ids : List Text} (h : ids.Nodup) :
    ids.Pairwise fun a b => ids.idxOf a < ids.idxOf b := by
  rw [List.pairwise_iff_getElem]
  intro i j hi hj hlt
  rwa [h.idxOf_getElem, h.idxOf_getElem]

/-- What is found room by room, and in each room in the order of its transitions, is found in
the order of the file. -/
theorem pairwise_before_flatMap {rooms : List Room} {part : Room → List Finding}
    (hnodup : (rooms.map (·.id)).Nodup) (hroom : ∀ r ∈ rooms, ∀ f ∈ part r, f.room = r.id)
    (hpart : ∀ r ∈ rooms,
      (part r).Pairwise fun f g => f.code = g.code → f.position < g.position) :
    (rooms.flatMap part).Pairwise fun f g => f.code = g.code → f.Before (rooms.map (·.id)) g := by
  rw [List.pairwise_flatMap]
  constructor
  · intro r hr
    refine (hpart r hr).imp_of_mem fun {f g} hf hg hlt hcode => .inr ⟨?_, hlt hcode⟩
    rw [hroom r hr f hf, hroom r hr g hg]
  · have hids := List.pairwise_map.mp (pairwise_idxOf hnodup)
    refine hids.imp_of_mem fun {r r'} hr hr' hlt f hf g hg _ => .inl ?_
    rwa [hroom r hr f hf, hroom r' hr' g hg]

theorem pairwise_invalidWeights {r : Room} {ws : List (Nat × Text × Option Nat)}
    (h : weightsOf (choicesFrom 0 r.transitions) = .ok ws) :
    (invalidWeights r.id ws).Pairwise fun f g => f.position < g.position := by
  have hpositions : ws.Pairwise fun a b => a.1 < b.1 := by
    rw [← List.pairwise_map]
    exact (List.pairwise_map.mpr (pairwise_choicesFrom r.transitions 0)).sublist
      (sublist_of_weightsOf h)
  rw [invalidWeights, List.pairwise_filterMap]
  refine hpositions.imp ?_
  rintro ⟨i, s, n⟩ ⟨j, t, m⟩ hlt f hf g hg
  obtain ⟨-, hf⟩ := Option.ite_none_right_eq_some.mp hf
  obtain ⟨-, hg⟩ := Option.ite_none_right_eq_some.mp hg
  cases hf
  cases hg
  exact hlt

theorem pairwise_auditWeights {r : Room} {found : List Finding} (h : auditWeights r = .ok found) :
    found.Pairwise fun f g => f.code = g.code → f.position < g.position := by
  obtain ⟨ws, hws, hfound⟩ := exists_weights_of_auditWeights h
  have hinvalid : (invalidWeights r.id ws).Pairwise fun f g =>
      f.code = g.code → f.position < g.position := by
    refine (pairwise_invalidWeights hws).imp ?_
    exact fun hlt _ => hlt
  rcases hfound with ⟨-, rfl⟩ | ⟨-, rfl⟩
  · refine List.pairwise_append.mpr ⟨hinvalid, List.pairwise_singleton _ _, ?_⟩
    intro f hf g hg hcode
    obtain ⟨position, s, -, rfl⟩ := mem_invalidWeights_iff.mp hf
    rw [List.mem_singleton.mp hg] at hcode
    exact absurd hcode (Finding.code_invalidWeight_ne _ _ _ _)
  · exact hinvalid

theorem pairwise_auditTargets (ids : List Text) (r : Room) :
    (auditTargets ids r).Pairwise fun f g => f.code = g.code → f.position < g.position := by
  rw [auditTargets, List.pairwise_filterMap]
  refine (pairwise_choicesFrom r.transitions 0).imp ?_
  rintro ⟨i, c⟩ ⟨j, d⟩ hlt f hf g hg -
  obtain ⟨-, hf⟩ := Option.ite_none_left_eq_some.mp hf
  obtain ⟨-, hg⟩ := Option.ite_none_left_eq_some.mp hg
  cases hf
  cases hg
  exact hlt

/-! ## The errors of an audit -/

variable {s : Story} {start? : Option Text} {findings : List Finding}

/-- The errors about different matters are found one matter after the other, and those about
the same one in the order of the file. -/
theorem pairwise_errors_of_audit (hnodup : s.ids.Nodup) (h : audit s start? = .ok findings) :
    (findings.filter (·.severity = .error)).Pairwise fun f g =>
      f.code = g.code → f.Before s.ids g := by
  obtain ⟨weights, hweights, herrors, -⟩ := filter_severity_of_audit hnodup h
  obtain ⟨hrooms, rfl⟩ := eq_flatMap_of_auditAllWeights hweights
  rw [herrors]
  have habout : ∀ r ∈ s.rooms, ∀ f ∈ weightFindings r, f.AboutWeights r.id :=
    fun r hr _ => aboutWeights_of_mem (hrooms r hr)
  refine List.pairwise_append.mpr ⟨?_, List.pairwise_append.mpr ⟨?_, ?_, ?_⟩, ?_⟩
  · exact pairwise_before_flatMap hnodup (fun r hr f hf => (habout r hr f hf).room_eq)
      fun r hr => pairwise_auditWeights (hrooms r hr)
  · unfold auditStart
    split
    · exact .nil
    · exact List.pairwise_singleton _ _
  · refine pairwise_before_flatMap hnodup (fun r _ f hf => ?_)
      fun r _ => pairwise_auditTargets s.ids r
    obtain ⟨position, target, rfl⟩ := exists_missingTarget_of_mem hf
    rfl
  · intro f hf g hg hcode
    obtain ⟨r, -, hg⟩ := List.mem_flatMap.mp hg
    obtain ⟨position, target, rfl⟩ := exists_missingTarget_of_mem hg
    rw [(mem_auditStart_iff.mp hf).2] at hcode
    exact absurd hcode (Finding.code_missingStart_ne _ _ _ _)
  · intro f hf g hg hcode
    obtain ⟨r, hr, hf⟩ := List.mem_flatMap.mp hf
    have hkind := habout r hr f hf
    rcases List.mem_append.mp hg with hg | hg
    · rw [(mem_auditStart_iff.mp hg).2] at hcode
      exact absurd hcode (hkind.code_ne_missingStart _)
    · obtain ⟨r', -, hg⟩ := List.mem_flatMap.mp hg
      obtain ⟨position, target, rfl⟩ := exists_missingTarget_of_mem hg
      exact absurd hcode (hkind.code_ne_missingTarget _ _ _)

/-- The errors of an audit are the defects of the story. -/
theorem mem_errors_iff_defect (hnodup : s.ids.Nodup) (hshort : s.HasShortWeights)
    (h : audit s start? = .ok findings) {f : Finding} :
    f ∈ findings.filter (·.severity = .error) ↔ s.Defect (s.startId start?) f := by
  obtain ⟨weights, hweights, herrors, -⟩ := filter_severity_of_audit hnodup h
  obtain ⟨hrooms, rfl⟩ := eq_flatMap_of_auditAllWeights hweights
  rw [herrors, List.mem_append, List.mem_append]
  constructor
  · rintro (hf | hf | hf)
    · obtain ⟨r, hr, hf⟩ := List.mem_flatMap.mp hf
      rcases (mem_auditWeights_iff (hrooms r hr)).mp hf with
        ⟨position, c, text, hc, htext, hn, rfl⟩ | ⟨hstuck, rfl⟩
      · exact .invalidWeight hr hc htext hn
      · obtain ⟨hmanual, hweighted, hnever⟩ := (Room.stuck_iff_of_isShort (hshort r hr)).mp hstuck
        exact .deadEnd hr hmanual hweighted hnever
    · obtain ⟨hmissing, rfl⟩ := mem_auditStart_iff.mp hf
      exact .missingStart hmissing
    · obtain ⟨r, hr, hf⟩ := List.mem_flatMap.mp hf
      obtain ⟨position, c, hc, hmissing, rfl⟩ := mem_auditTargets_iff.mp hf
      exact .missingTarget hr hc hmissing
  · intro hdefect
    cases hdefect with
    | @invalidWeight r position c text hr hc htext hn =>
      refine .inl (List.mem_flatMap.mpr ⟨r, hr, (mem_auditWeights_iff (hrooms r hr)).mpr ?_⟩)
      exact .inl ⟨position, c, text, hc, htext, hn, rfl⟩
    | @deadEnd r hr hmanual hweighted hnever =>
      refine .inl (List.mem_flatMap.mpr ⟨r, hr, (mem_auditWeights_iff (hrooms r hr)).mpr ?_⟩)
      exact .inr ⟨(Room.stuck_iff_of_isShort (hshort r hr)).mpr ⟨hmanual, hweighted, hnever⟩, rfl⟩
    | missingStart hmissing => exact .inr (.inl (mem_auditStart_iff.mpr ⟨hmissing, rfl⟩))
    | @missingTarget r position c hr hc hmissing =>
      exact .inr (.inr (List.mem_flatMap.mpr
        ⟨r, hr, mem_auditTargets_iff.mpr ⟨position, c, hc, hmissing, rfl⟩⟩))

end Audit

/-! ## The report of the program -/

theorem Finding.isError_notice {f : Finding} : f.notice.isError = true ↔ f.severity = .error := by
  have hwarning : Severity.warning.word ≠ Severity.error.word := by decide
  rw [Notice.isError, notice, decide_eq_true_iff]
  cases f.severity <;> simp [hwarning]

/-- The program reports on a story that it opens if an audit answers, and the status is zero
exactly if no finding is an error. -/
theorem Run.exists_auditing (σ : Type) {w : World} {name : Text} {loaded : Loaded}
    {findings : List Finding} (hopen : w.openStory .standard name = .opened loaded)
    (haudit : audit loaded.story (some loaded.room) = .ok findings) :
    ∃ lines status, (auditing w .standard name : Run σ) = .reporting w lines status ∧
      (status = 0 ↔ findings.filter (·.severity = .error) = []) := by
  have hstatus : (findings.map Finding.notice).any Notice.isError = true ↔
      findings.filter (·.severity = .error) ≠ [] := by
    simp [List.any_eq_true, Finding.isError_notice, List.filter_eq_nil_iff]
  unfold auditing
  simp only [hopen, haudit]
  refine ⟨_, _, rfl, ?_⟩
  rw [← not_iff_not, ← ne_eq (findings.filter _), ← hstatus]
  simp

/-- In a story whose rooms have ids of their own and whose weights are short, an audit answers
from every start, and its errors are the defects of the story with that start: none is left
out, none is reported twice, and those of a kind are reported in the order of the file, where
positions count all transitions of a room.  So for a story that the program opens, and whose
weights are short, the status after an audit is zero exactly if the story has no defect with the
start that loading says. -/
theorem audit_reports_defects :
    (∀ s : Story, s.ids.Nodup → s.HasShortWeights → ∀ start?,
      ∃ findings, audit s start? = .ok findings ∧
        (∀ f, f ∈ findings.filter (·.severity = .error) ↔ s.Defect (s.startId start?) f) ∧
        (findings.filter (·.severity = .error)).Nodup ∧
        (findings.filter (·.severity = .error)).Pairwise fun f g =>
          f.code = g.code → f.Before s.ids g) ∧
    ∀ (σ : Type) (w : World) (name : Text) (loaded : Loaded),
      w.openStory .standard name = .opened loaded → loaded.story.HasShortWeights →
        ∃ lines status, (Run.auditing w .standard name : Run σ) = .reporting w lines status ∧
          (status = 0 ↔ ∀ f, ¬ loaded.story.Defect loaded.room f) := by
  constructor
  · intro s hnodup hshort start?
    obtain ⟨findings, hfindings⟩ := Audit.exists_audit hshort start?
    have horder := Audit.pairwise_errors_of_audit hnodup hfindings
    refine ⟨findings, hfindings, fun f => Audit.mem_errors_iff_defect hnodup hshort hfindings,
      horder.imp ?_, horder⟩
    rintro f g hbefore rfl
    exact (hbefore rfl).ne rfl
  · intro σ w name loaded hopen hshort
    obtain ⟨path, hload⟩ := World.exists_load_of_openStory hopen
    have hnodup := (World.lawful_of_load hload).ids_nodup
    have hstart : loaded.story.startId (some loaded.room) = loaded.room :=
      Story.startId_of_ne_nil (World.isLineName_room_of_load hload).ne_nil
    obtain ⟨findings, hfindings⟩ := Audit.exists_audit hshort (some loaded.room)
    obtain ⟨lines, status, hrun, hstatus⟩ := Run.exists_auditing σ hopen hfindings
    refine ⟨lines, status, hrun, hstatus.trans ?_⟩
    rw [List.eq_nil_iff_forall_not_mem, ← hstart]
    exact forall_congr' fun f => not_congr (Audit.mem_errors_iff_defect hnodup hshort hfindings)

/-- In the ruin the stairs are weighted with a word, behind an ending that does not count as a
choice, and the cellar cannot be left. -/
def Ruin.story : Story where
  rooms := [
    ⟨"hall".toList, [], [],
      [.ending .failure, .choice ⟨"Climb".toList, "attic".toList, some "often".toList⟩]⟩,
    ⟨"cellar".toList, [], [], [.choice ⟨"Wait".toList, "cellar".toList, some "0".toList⟩]⟩]
  rooms_ne_nil := List.cons_ne_nil _ _

/-- The ruin is audited from a shed that it does not have; the cellar's story has no defect. -/
theorem audit_reports_defects_ruin :
    Ruin.story.Defect "shed".toList (.invalidWeight "hall".toList 1 "often".toList) ∧
      Ruin.story.Defect "shed".toList (.deadEnd "hall".toList) ∧
      Ruin.story.Defect "shed".toList (.deadEnd "cellar".toList) ∧
      Ruin.story.Defect "shed".toList (.missingStart "shed".toList) ∧
      Ruin.story.Defect "shed".toList (.missingTarget "hall".toList 1 "attic".toList) ∧
      ¬ Ruin.story.Defect "shed".toList (.missingTarget "cellar".toList 0 "cellar".toList) ∧
      ∀ f, ¬ Cellar.story.Defect "hall".toList f := by
  obtain ⟨hstories, hprogram⟩ := audit_reports_defects
  have hruin : Ruin.story.HasShortWeights := Story.hasShortWeights_of_isOk (by decide +kernel)
  have hcellar : Cellar.story.HasShortWeights := Story.hasShortWeights_of_isOk (by decide +kernel)
  obtain ⟨findings, hfindings, hdefects, -⟩ :=
    hstories Ruin.story (by decide) hruin (some "shed".toList)
  have hreported : audit Ruin.story (some "shed".toList) = .ok
      [.invalidWeight "hall".toList 1 "often".toList, .deadEnd "hall".toList,
        .deadEnd "cellar".toList, .missingStart "shed".toList,
        .missingTarget "hall".toList 1 "attic".toList, .unreachable "hall".toList,
        .unreachable "cellar".toList] := by decide +kernel
  obtain rfl := Except.ok.inj (hreported.symm.trans hfindings)
  have hopen : Cellar.world.openStory .standard "outer".toList =
      .opened ⟨"story".toList, Cellar.story, "hall".toList⟩ :=
    World.openStory_of_load rfl Cellar.load_outer
  obtain ⟨lines, status, hrun, hstatus⟩ := hprogram Unit _ _ _ hopen hcellar
  refine ⟨(hdefects _).mp (by decide +kernel), (hdefects _).mp (by decide +kernel),
    (hdefects _).mp (by decide +kernel), (hdefects _).mp (by decide +kernel),
    (hdefects _).mp (by decide +kernel), mt (hdefects _).mpr (by decide +kernel), ?_⟩
  refine hstatus.mp ?_
  have hclean : audit Cellar.story (some "hall".toList) = .ok [] := by decide +kernel
  obtain ⟨_, _, hquiet, hzero⟩ := Run.exists_auditing Unit hopen hclean
  cases hrun.symm.trans hquiet
  exact hzero.mpr rfl

end Gamebook
