import Gamebook.Audit
import Gamebook.Proofs.Session.Playable
import Gamebook.Proofs.Story.Lawful
import Mathlib.Data.List.Forall2
import Mathlib.Data.List.Nodup
set_option autoImplicit false

/-!
# What a story without errors has

The rooms of a lawful story in which an audit finds no error can all be left, all
choices lead to rooms of the story, and so does the start: the story can be played.
-/

namespace Gamebook

namespace Audit

/-! ## The choices of a room -/

theorem map_snd_choicesFrom (ts : List Transition) (position : Nat) :
    (choicesFrom position ts).map Prod.snd = ts.filterMap Transition.choice? := by
  induction ts generalizing position with
  | nil => rfl
  | cons t rest ih =>
    cases t with
    | ending outcome => exact ih (position + 1)
    | choice c =>
      rw [choicesFrom, List.map_cons, ih]
      rfl

theorem exists_mem_choicesFrom {ts : List Transition} {c : Choice} (h : .choice c ∈ ts)
    (position : Nat) : ∃ i, (i, c) ∈ choicesFrom position ts := by
  have hmem : c ∈ (choicesFrom position ts).map Prod.snd := by
    rw [map_snd_choicesFrom]
    exact Transition.mem_filterMap_choice?.mpr h
  obtain ⟨⟨i, c'⟩, hentry, rfl⟩ := List.mem_map.mp hmem
  exact ⟨i, hentry⟩

/-- Of choices none of which is weighted, some is for the reader to make. -/
theorem manual_ne_nil {ts : List Transition} (hchoices : ∀ t ∈ ts, t.isEnding = false)
    (hne : ts ≠ []) (hweighted : Transition.weighted ts = []) : Transition.manual ts ≠ [] := by
  obtain ⟨t, rest, rfl⟩ := List.exists_cons_of_ne_nil hne
  cases t with
  | ending outcome => cases hchoices (.ending outcome) List.mem_cons_self
  | choice c =>
    have hmem : c ∈ (Transition.choice c :: rest).filterMap Transition.choice? :=
      Transition.mem_filterMap_choice?.mpr List.mem_cons_self
    have hmanual : c.isWeighted = false := by
      simpa using List.filter_eq_nil_iff.mp hweighted c hmem
    exact List.ne_nil_of_mem (List.mem_filter.mpr ⟨hmem, by rw [hmanual]; rfl⟩)

/-! ## Weights -/

/-- A choice without a weight is passed over, and a weighted one is read before those after
it. -/
theorem weightsOf_cons_eq_ok_iff {position : Nat} {c : Choice} {rest : List (Nat × Choice)}
    {ws : List (Nat × Text × Option Nat)} :
    weightsOf ((position, c) :: rest) = .ok ws ↔
      (c.weightText? = none ∧ weightsOf rest = .ok ws) ∨
        ∃ s n more, c.weightText? = some s ∧ c.weight = .ok n ∧ weightsOf rest = .ok more ∧
          ws = (position, s, n) :: more := by
  rw [weightsOf, Choice.weight]
  cases c.weightText? with
  | none => simp
  | some s =>
    cases hweight : weightOfText s with
    | error e => simp [hweight]
    | ok n => cases weightsOf rest <;> simp [hweight, eq_comm]

/-- The weights that an audit reads are those of the weighted choices, in order. -/
theorem weight_of_weightsOf {entries : List (Nat × Choice)} {ws : List (Nat × Text × Option Nat)}
    (h : weightsOf entries = .ok ws) :
    List.Forall₂ (fun e c => Choice.weight c = .ok e.2.2) ws
      ((entries.map Prod.snd).filter fun c => c.isWeighted) := by
  induction entries generalizing ws with
  | nil =>
    cases h
    exact .nil
  | cons entry rest ih =>
    rw [List.map_cons, List.filter_cons]
    rcases weightsOf_cons_eq_ok_iff.mp h with ⟨hnone, hrest⟩ | ⟨s, n, more, hsome, hn, hrest, rfl⟩
    · rw [if_neg (by simp [Choice.isWeighted, hnone])]
      exact ih hrest
    · rw [if_pos (by simp [Choice.isWeighted, hsome])]
      exact .cons hn (ih hrest)

/-- When all weights are numbers, lots are drawn by these numbers. -/
theorem weights?_of_forall₂ {ws : List (Nat × Text × Option Nat)} {cs : List Choice}
    (h : List.Forall₂ (fun e c => Choice.weight c = .ok e.2.2) ws cs)
    (hvalid : ∀ e ∈ ws, e.2.2 ≠ none) :
    Lot.weights? cs = .ok (some (ws.map fun e => e.2.2.getD 0)) := by
  induction h with
  | nil => rfl
  | @cons e c ws cs hweight _ ih =>
    obtain ⟨n, hn⟩ := Option.ne_none_iff_exists'.mp (hvalid e List.mem_cons_self)
    have hrest := ih fun e he => hvalid e (List.mem_cons_of_mem _ he)
    rw [hn] at hweight
    rw [Lot.weights?, hweight]
    simp only [hrest, List.map_cons, hn, Option.getD_some]

/-! ## Findings without errors -/

/-- None of the findings is an error. -/
def Clean (findings : List Finding) : Prop := ∀ f ∈ findings, f.severity ≠ .error

theorem clean_append {found more : List Finding} :
    Clean (found ++ more) ↔ Clean found ∧ Clean more := List.forall_mem_append

/-- Without errors all weights of a room are numbers, and unless the reader has a
choice or nothing is weighted they add up to something. -/
theorem weights_of_clean {r : Room} {found : List Finding} (h : auditWeights r = .ok found)
    (hclean : Clean found) :
    ∃ ws, Lot.weights? (Transition.weighted r.transitions) = .ok (some ws) ∧
      (Transition.manual r.transitions ≠ [] ∨ Transition.weighted r.transitions = [] ∨
        1 ≤ totalWeight ws) := by
  unfold auditWeights at h
  split at h
  · cases h
  · rename_i ws hws
    cases h
    obtain ⟨hinvalid, hstuck⟩ := clean_append.mp hclean
    have hweights := weight_of_weightsOf hws
    rw [map_snd_choicesFrom] at hweights
    have hvalid : ∀ e ∈ ws, e.2.2 ≠ none := by
      intro e he hnone
      obtain ⟨position, s, n⟩ := e
      refine hinvalid (.invalidWeight r.id position s) ?_ rfl
      exact List.mem_filterMap.mpr ⟨_, he, by simp_all⟩
    refine ⟨_, weights?_of_forall₂ hweights hvalid, ?_⟩
    by_contra hnot
    obtain ⟨hmanual, hweighted, htotal⟩ : Transition.manual r.transitions = [] ∧
        Transition.weighted r.transitions ≠ [] ∧
        totalWeight (ws.map fun e => e.2.2.getD 0) < 1 := by
      simpa [not_or] using hnot
    have hne : ws ≠ [] := by
      rintro rfl
      exact hweighted (List.forall₂_nil_left_iff.mp hweights)
    refine hstuck (.deadEnd r.id) ?_ rfl
    rw [if_pos]
    · exact List.mem_singleton_self _
    · simp [hmanual, hne, Nat.lt_one_iff.mp htotal]

/-- What is wrong with the weights of rooms is what is wrong with those of the first and then
with those of the rest. -/
theorem exists_of_auditAllWeights_cons {r : Room} {rest : List Room} {found : List Finding}
    (h : auditAllWeights (r :: rest) = .ok found) :
    ∃ first more, auditWeights r = .ok first ∧ auditAllWeights rest = .ok more ∧
      found = first ++ more := by
  unfold auditAllWeights at h
  split at h
  · cases h
  · rename_i first hfirst
    split at h
    · cases h
    · rename_i more hmore
      exact ⟨first, more, hfirst, hmore, (Except.ok.inj h).symm⟩

/-- What is wrong with the weights of a room, as far as it can be told. -/
def weightFindings (r : Room) : List Finding := (auditWeights r).toOption.getD []

theorem weightFindings_of_auditWeights {r : Room} {found : List Finding}
    (h : auditWeights r = .ok found) : weightFindings r = found := by
  rw [weightFindings, h]
  rfl

/-- What is wrong with the weights of rooms is found room by room. -/
theorem eq_flatMap_of_auditAllWeights {rooms : List Room} {found : List Finding}
    (h : auditAllWeights rooms = .ok found) :
    (∀ r ∈ rooms, auditWeights r = .ok (weightFindings r)) ∧
      found = rooms.flatMap weightFindings := by
  induction rooms generalizing found with
  | nil =>
    cases h
    exact ⟨nofun, rfl⟩
  | cons r rest ih =>
    obtain ⟨first, more, hfirst, hmore, rfl⟩ := exists_of_auditAllWeights_cons h
    obtain ⟨hrest, rfl⟩ := ih hmore
    rw [List.forall_mem_cons, List.flatMap_cons, weightFindings_of_auditWeights hfirst]
    exact ⟨⟨hfirst, hrest⟩, rfl⟩

theorem auditWeights_of_auditAllWeights {rooms : List Room} {found : List Finding}
    (h : auditAllWeights rooms = .ok found) {r : Room} (hr : r ∈ rooms) :
    ∃ part, auditWeights r = .ok part ∧ ∀ f ∈ part, f ∈ found := by
  obtain ⟨hrooms, rfl⟩ := eq_flatMap_of_auditAllWeights h
  exact ⟨weightFindings r, hrooms r hr, fun f hf => List.mem_flatMap_of_mem hr hf⟩

/-! ## Rooms -/

theorem eraseDups_of_nodup {ids : List Text} (h : ids.Nodup) : ids.eraseDups = ids := by
  induction ids with
  | nil => rfl
  | cons id rest ih =>
    obtain ⟨hid, hrest⟩ := List.nodup_cons.mp h
    have hfilter : rest.filter (fun other => !other == id) = rest := by
      apply List.filter_eq_self.mpr
      intro other hother
      have hne : other ≠ id := by
        intro heq
        exact hid (heq ▸ hother)
      simpa using hne
    rw [List.eraseDups_cons, hfilter, ih hrest]

/-- In a list whose ids are all different no room hides another. -/
theorem distinctRooms_of_nodup {rooms : List Room} (h : (rooms.map (·.id)).Nodup) :
    distinctRooms rooms = rooms := by
  have hreverse : (rooms.reverse.map (·.id)).Nodup := by
    rw [List.map_reverse]
    exact List.nodup_reverse.mpr h
  have hfind : ∀ r ∈ rooms, rooms.reverse.find? (·.id = r.id) = some r := by
    intro r hr
    exact Room.find?_id_of_nodup hreverse (List.mem_reverse.mpr hr)
  rw [distinctRooms, eraseDups_of_nodup h, List.filterMap_map]
  calc rooms.filterMap (fun r => rooms.reverse.find? (·.id = r.id))
      = rooms.filterMap some := List.filterMap_congr hfind
    _ = rooms := List.filterMap_some

/-- A room with lawful transitions and weights without errors can be left. -/
theorem canLeave_of_clean {r : Room} {found : List Finding}
    (hunmixed : Transition.Unmixed r.transitions) (hne : r.transitions ≠ [])
    (h : auditWeights r = .ok found) (hclean : Clean found) : r.CanLeave := by
  rcases hunmixed with ⟨outcome, hts⟩ | hchoices
  · exact .inl ⟨outcome, by rw [hts]; rfl⟩
  · obtain ⟨ws, hws, hway⟩ := weights_of_clean h hclean
    refine .inr ⟨ws, hws, ?_⟩
    rcases hway with hmanual | hweighted | htotal
    · exact .inr hmanual
    · exact .inr (manual_ne_nil hchoices hne hweighted)
    · exact .inl htotal

/-- Choices that lead to no room are errors. -/
theorem target_mem_of_clean {ids : List Text} {r : Room} (h : Clean (auditTargets ids r))
    {c : Choice} (hc : .choice c ∈ r.transitions) : c.target ∈ ids := by
  by_contra hmissing
  obtain ⟨i, hi⟩ := exists_mem_choicesFrom hc 0
  refine h (.missingTarget r.id i c.target) ?_ rfl
  exact List.mem_filterMap.mpr ⟨(i, c), hi, if_neg hmissing⟩

end Audit

/-! ## The whole audit -/

/-- A lawful story in which an audit finds no error can be played, and its start is
one of its rooms. -/
theorem playable_of_audit {P : Char → Prop} {s : Story} {start? : Option Text}
    {findings : List Finding} (hlawful : s.Lawful P) (h : audit s start? = .ok findings)
    (hclean : Audit.Clean findings) : s.Playable ∧ s.startId start? ∈ s.ids := by
  unfold audit at h
  split at h
  · cases h
  · rename_i weights hweights
    have hrooms : Audit.distinctRooms s.rooms = s.rooms :=
      Audit.distinctRooms_of_nodup hlawful.ids_nodup
    rw [hrooms] at h
    simp only [Except.ok.injEq] at h
    subst h
    simp only [Audit.clean_append] at hclean
    obtain ⟨⟨⟨⟨hweight, hstart⟩, htarget⟩, -⟩, -⟩ := hclean
    refine ⟨⟨?_, ?_⟩, ?_⟩
    · intro r hr
      obtain ⟨part, hpart, hsub⟩ := Audit.auditWeights_of_auditAllWeights hweights hr
      exact Audit.canLeave_of_clean (hlawful.rooms r hr).unmixed
        (hlawful.transitions_ne_nil r hr) hpart fun f hf => hweight f (hsub f hf)
    · intro r hr c hc
      have hroom : Audit.Clean (Audit.auditTargets s.ids r) := by
        intro f hf
        exact htarget f (List.mem_flatMap.mpr ⟨r, hr, hf⟩)
      exact Audit.target_mem_of_clean hroom hc
    · by_contra hmissing
      rw [Audit.auditStart, if_neg hmissing] at hstart
      exact hstart _ (List.mem_singleton_self _) rfl

end Gamebook
