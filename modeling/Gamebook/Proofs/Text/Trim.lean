import Gamebook.Text
import Mathlib.Data.List.Basic
import Mathlib.Data.List.TakeWhile
set_option autoImplicit false

/-!
# Trimmed texts

Trimming takes away characters at the ends only, a second time it changes
nothing, and nothing is left exactly of the texts that are all blank.
-/

namespace Gamebook.Text

theorem trimStart_sublist (s : Text) : (trimStart s).Sublist s :=
  List.dropWhile_sublist isBlank

theorem trimEnd_sublist (s : Text) : (trimEnd s).Sublist s := by
  have h := (List.dropWhile_sublist isBlank (l := s.reverse)).reverse
  rwa [List.reverse_reverse] at h

theorem trim_sublist (s : Text) : (trim s).Sublist s :=
  (trimEnd_sublist _).trans (trimStart_sublist s)

theorem mem_of_mem_trim {s : Text} {c : Char} (h : c ∈ trim s) : c ∈ s :=
  (trim_sublist s).subset h

/-- What is left of a text after its end is trimmed is a start of it. -/
theorem trim_prefix_trimStart (s : Text) : trim s <+: trimStart s := by
  have h := (List.dropWhile_suffix isBlank (l := (trimStart s).reverse)).reverse
  rwa [List.reverse_reverse] at h

theorem trim_isInfix (s : Text) : trim s <:+: s :=
  (trim_prefix_trimStart s).isInfix.trans (List.dropWhile_suffix isBlank).isInfix

/-! ## Texts that trimming leaves alone -/

/-- The text neither starts nor ends with a blank. -/
def IsTrimmed (s : Text) : Prop :=
  (∀ c ∈ s.head?, isBlank c = false) ∧ ∀ c ∈ s.getLast?, isBlank c = false

theorem head?_dropWhile_isBlank {s : Text} :
    ∀ c ∈ (s.dropWhile isBlank).head?, isBlank c = false := by
  intro c hc
  have hne := List.head?_dropWhile_not isBlank s
  rw [Option.mem_def.mp hc] at hne
  exact hne

theorem dropWhile_eq_self {s : Text} (h : ∀ c ∈ s.head?, isBlank c = false) :
    s.dropWhile isBlank = s := by
  cases s with
  | nil => rfl
  | cons c rest => simp [h c rfl]

theorem trim_eq_self {s : Text} (h : IsTrimmed s) : trim s = s := by
  have hstart : trimStart s = s := dropWhile_eq_self h.1
  have hlast : ∀ c ∈ s.reverse.head?, isBlank c = false := by
    rw [List.head?_reverse]
    exact h.2
  rw [trim, hstart, trimEnd, dropWhile_eq_self hlast, List.reverse_reverse]

theorem isTrimmed_trim (s : Text) : IsTrimmed (trim s) := by
  have hlast : ∀ c ∈ (trim s).getLast?, isBlank c = false := by
    rw [trim, trimEnd, List.getLast?_reverse]
    exact head?_dropWhile_isBlank
  refine ⟨?_, hlast⟩
  intro c hc
  obtain ⟨rest, hrest⟩ := trim_prefix_trimStart s
  apply head?_dropWhile_isBlank (s := s)
  cases htrim : trim s with
  | nil => rw [htrim] at hc; simp at hc
  | cons d tail =>
    rw [htrim] at hc hrest
    unfold trimStart at hrest
    rw [← hrest]
    simpa using hc

theorem trim_eq_self_iff {s : Text} : trim s = s ↔ IsTrimmed s :=
  ⟨fun h => h ▸ isTrimmed_trim s, trim_eq_self⟩

@[simp] theorem trim_trim (s : Text) : trim (trim s) = trim s := trim_eq_self (isTrimmed_trim s)

theorem isTrimmed_nil : IsTrimmed [] := ⟨nofun, nofun⟩

theorem IsTrimmed.cons {s : Text} {c : Char} (hc : isBlank c = false) (h : IsTrimmed s) :
    IsTrimmed (c :: s) := by
  refine ⟨by simpa using hc, ?_⟩
  intro d hd
  rw [List.getLast?_cons, Option.mem_some] at hd
  cases hlast : s.getLast? with
  | none =>
    rw [hlast] at hd
    exact hd ▸ hc
  | some last =>
    rw [hlast] at hd
    exact hd ▸ h.2 last hlast

/-- Whatever stands between trimmed texts that are not empty is safe from trimming. -/
theorem IsTrimmed.enclose {front back : Text} (h : IsTrimmed front) (h' : IsTrimmed back)
    (hfront : front ≠ []) (hback : back ≠ []) (middle : Text) :
    IsTrimmed (front ++ middle ++ back) := by
  constructor
  · rw [List.append_assoc, List.head?_append_of_ne_nil _ hfront]
    exact h.1
  · rw [List.getLast?_append_of_ne_nil _ hback]
    exact h'.2

/-! ## Blank texts -/

theorem trim_eq_nil_iff {s : Text} : trim s = [] ↔ isAllBlank s = true := by
  rw [isAllBlank, List.all_eq_true]
  constructor
  · intro h
    have hstart : trimStart s = [] := by
      rw [trim, trimEnd, List.reverse_eq_nil_iff, List.dropWhile_eq_nil_iff] at h
      cases hs : trimStart s with
      | nil => rfl
      | cons c rest =>
        have hc : isBlank c = true := h c (by simp [hs])
        have hnot : isBlank c = false := head?_dropWhile_isBlank (s := s) c (by
          rw [← trimStart, hs]; rfl)
        rw [hc] at hnot
        exact absurd hnot (by decide)
    exact List.dropWhile_eq_nil_iff.mp hstart
  · intro h
    have hstart : trimStart s = [] := List.dropWhile_eq_nil_iff.mpr h
    rw [trim, hstart]
    rfl

theorem trim_ne_nil_iff {s : Text} : trim s ≠ [] ↔ isAllBlank s = false := by
  rw [ne_eq, trim_eq_nil_iff, Bool.not_eq_true]

/-- Blanks after a trimmed text are trimmed away. -/
theorem trim_append_of_blank {s blanks : Text} (h : IsTrimmed s) (hblank : isAllBlank blanks = true) :
    trim (s ++ blanks) = s := by
  have hall : ∀ c ∈ blanks, isBlank c = true := List.all_eq_true.mp hblank
  cases s with
  | nil => exact trim_eq_nil_iff.mpr hblank
  | cons c rest =>
    have hstart : trimStart ((c :: rest) ++ blanks) = (c :: rest) ++ blanks :=
      dropWhile_eq_self (by simpa using h.1)
    have hlast : ∀ d ∈ (c :: rest).reverse.head?, isBlank d = false := by
      rw [List.head?_reverse]
      exact h.2
    rw [trim, hstart, trimEnd, List.reverse_append,
      List.dropWhile_append_of_pos (by simpa using hall), dropWhile_eq_self hlast,
      List.reverse_reverse]

end Gamebook.Text
