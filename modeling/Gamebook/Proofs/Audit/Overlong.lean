import Gamebook.Proofs.Audit.Search
import Gamebook.Proofs.Lot.Overlong
set_option autoImplicit false

/-!
# Audits of weights that are too long

An audit reads the weights of all choices in the order of the file, also those that are no
numbers, and fails with the first one that is too long.  When all weights are short, it answers.
-/

namespace Gamebook

/-- No weight of the story has more digits than are converted. -/
def Story.HasShortWeights (s : Story) : Prop :=
  ∀ r ∈ s.rooms, ∀ c, .choice c ∈ r.transitions → c.IsShort

theorem Story.hasShortWeights_of_isOk {s : Story}
    (h : ∀ r ∈ s.rooms, ∀ c ∈ r.transitions.filterMap Transition.choice?, c.weight.isOk = true) :
    s.HasShortWeights := by
  intro r hr c hc
  have hok := h r hr c (Transition.mem_filterMap_choice?.mpr hc)
  rw [Choice.isShort_iff]
  cases hweight : c.weight with
  | ok n => exact ⟨n, rfl⟩
  | error e =>
    rw [hweight] at hok
    cases hok

namespace Audit

/-- The weights of an audit are read up to the first one that cannot be told. -/
theorem weightsOf_eq_error_iff {entries : List (Nat × Choice)} {e : Overlong} :
    weightsOf entries = .error e ↔
      Choice.FirstOverlong Choice.IsShort e (entries.map Prod.snd) := by
  induction entries with
  | nil => exact ⟨nofun, nofun⟩
  | cons entry rest ih =>
    obtain ⟨position, c⟩ := entry
    rw [List.map_cons, Choice.FirstOverlong.cons_iff, ← ih, ← Choice.weight_eq_error_iff,
      Choice.isShort_iff, weightsOf, Choice.weight]
    cases c.weightText? with
    | none => simp
    | some s =>
      cases hweight : weightOfText s with
      | error e' => simp [hweight]
      | ok n => cases weightsOf rest <;> simp [hweight]

theorem auditWeights_eq_error_iff {r : Room} {e : Overlong} :
    auditWeights r = .error e ↔
      Choice.FirstOverlong Choice.IsShort e (r.transitions.filterMap Transition.choice?) := by
  rw [← map_snd_choicesFrom r.transitions 0, ← weightsOf_eq_error_iff, auditWeights]
  cases weightsOf (choicesFrom 0 r.transitions) <;> simp

/-- The weights of a room that is gone through are all short. -/
theorem isShort_of_auditWeights {r : Room} {found : List Finding}
    (h : auditWeights r = .ok found) :
    ∀ c ∈ r.transitions.filterMap Transition.choice?, c.IsShort := by
  by_contra hlong
  obtain ⟨e, he⟩ := Choice.exists_firstOverlong hlong
  cases h.symm.trans (auditWeights_eq_error_iff.mpr he)

theorem auditAllWeights_eq_error_iff {rooms : List Room} {e : Overlong} :
    auditAllWeights rooms = .error e ↔
      Choice.FirstOverlong Choice.IsShort e (choices rooms) := by
  induction rooms with
  | nil => exact ⟨nofun, nofun⟩
  | cons r rest ih =>
    have hchoices : choices (r :: rest) =
        r.transitions.filterMap Transition.choice? ++ choices rest := List.flatMap_cons
    rw [hchoices, Choice.FirstOverlong.append_iff, ← ih, ← auditWeights_eq_error_iff]
    cases hr : auditWeights r with
    | error e' =>
      have hlong : ¬ ∀ c ∈ r.transitions.filterMap Transition.choice?, c.IsShort := by
        intro hshort
        obtain ⟨c, hc, hoverlong⟩ := (auditWeights_eq_error_iff.mp hr).exists_mem
        exact hoverlong.not_isShort (hshort c hc)
      rw [or_iff_left fun h => hlong h.1]
      simp [auditAllWeights, hr]
    | ok found =>
      rw [and_iff_right (isShort_of_auditWeights hr)]
      cases hrest : auditAllWeights rest <;> simp [auditAllWeights, hr, hrest]

end Audit

variable {s : Story} {start? : Option Text}

/-- From whatever start, an audit fails exactly if a weight is too long, and with the first
one. -/
theorem audit_eq_error_iff {e : Overlong} : audit s start? = .error e ↔
    Choice.FirstOverlong Choice.IsShort e (Audit.choices s.rooms) := by
  rw [← Audit.auditAllWeights_eq_error_iff, audit]
  cases Audit.auditAllWeights s.rooms <;> simp

/-- When all weights are short, an audit answers. -/
theorem Audit.exists_audit (h : s.HasShortWeights) (start? : Option Text) :
    ∃ findings, audit s start? = .ok findings := by
  cases haudit : audit s start? with
  | ok findings => exact ⟨findings, rfl⟩
  | error e =>
    obtain ⟨c, hc, hoverlong⟩ := (audit_eq_error_iff.mp haudit).exists_mem
    obtain ⟨r, hr, hmem⟩ := List.mem_flatMap.mp hc
    exact absurd (h r hr c (Transition.mem_filterMap_choice?.mp hmem)) hoverlong.not_isShort

end Gamebook
