import Gamebook.Text
set_option autoImplicit false

/-!
# Cuts at a separator

A cut of a text is what stands before and after one occurrence of a separator.
This module says what the first and the last cut are without searching for them,
and proves that the two searches find exactly these.
-/

namespace Gamebook.Text

/-- What stands before and after the first occurrence of a separator. -/
structure IsFirstCut (separator s before tail : Text) : Prop where
  eq : s = before ++ separator ++ tail
  first : ∀ b t, s = b ++ separator ++ t → before.length ≤ b.length

/-- What stands before and after the last occurrence of a separator. -/
structure IsLastCut (separator s before tail : Text) : Prop where
  eq : s = before ++ separator ++ tail
  last : ∀ b t, s = b ++ separator ++ t → b.length ≤ before.length

/-- Two cuts of one text with equally long starts are the same. -/
theorem cut_inj {separator s b b' t t' : Text} (h : s = b ++ separator ++ t)
    (h' : s = b' ++ separator ++ t') (hlen : b.length = b'.length) : b = b' ∧ t = t' := by
  have heq : b ++ (separator ++ t) = b' ++ (separator ++ t') := by
    rw [← List.append_assoc, ← List.append_assoc, ← h, ← h']
  obtain ⟨hb, hrest⟩ := List.append_inj heq hlen
  exact ⟨hb, List.append_cancel_left hrest⟩

theorem IsFirstCut.unique {separator s b b' t t' : Text} (h : IsFirstCut separator s b t)
    (h' : IsFirstCut separator s b' t') : b = b' ∧ t = t' :=
  cut_inj h.eq h'.eq (Nat.le_antisymm (h.first _ _ h'.eq) (h'.first _ _ h.eq))

theorem IsLastCut.unique {separator s b b' t t' : Text} (h : IsLastCut separator s b t)
    (h' : IsLastCut separator s b' t') : b = b' ∧ t = t' :=
  cut_inj h.eq h'.eq (Nat.le_antisymm (h'.last _ _ h.eq) (h.last _ _ h'.eq))

/-- The separator does not occur before its first occurrence. -/
theorem IsFirstCut.not_isInfix {separator s before tail : Text} (hne : separator ≠ [])
    (h : IsFirstCut separator s before tail) : ¬ separator <:+: before := by
  intro hmore
  obtain ⟨b, t, hbefore⟩ := hmore
  have hle := h.first b (t ++ separator ++ tail) (by rw [h.eq, ← hbefore]; simp)
  have hpos : 0 < separator.length := List.length_pos_iff.mpr hne
  rw [← hbefore, List.length_append, List.length_append] at hle
  omega

/-- After a text without the separator and a character that the separator lacks, the
first occurrence is the one that follows. -/
theorem isFirstCut_of_guard {separator text tail : Text} {c : Char} (hc : c ∉ separator)
    (h : ¬ separator <:+: text) :
    IsFirstCut separator (text ++ c :: (separator ++ tail)) (text ++ [c]) tail := by
  refine ⟨by simp, fun b t heq => Nat.le_of_not_lt fun hlt => ?_⟩
  have hlen : b.length ≤ text.length := by
    rw [List.length_append, List.length_singleton] at hlt
    omega
  have hwhole : b <+: text ++ c :: (separator ++ tail) :=
    ⟨separator ++ t, by rw [heq, List.append_assoc]⟩
  obtain ⟨r, rfl⟩ := List.prefix_of_prefix_length_le hwhole (List.prefix_append _ _) hlen
  have hrest : r ++ c :: (separator ++ tail) = separator ++ t := by
    rw [List.append_assoc, List.append_assoc] at heq
    exact List.append_cancel_left heq
  have hseparator : separator <+: r ++ c :: (separator ++ tail) := ⟨t, hrest.symm⟩
  have hguard : r ++ [c] <+: r ++ c :: (separator ++ tail) := ⟨separator ++ tail, by simp⟩
  -- an earlier occurrence would lie in the text or reach over the character
  rcases List.prefix_or_prefix_of_prefix hseparator hguard with hshort | hlong
  · rcases List.prefix_concat_iff.mp hshort with rfl | hr
    · exact hc (by simp)
    · exact h (hr.isInfix.trans (List.suffix_append b r).isInfix)
  · exact hc (hlong.subset (by simp))

/-! ## Separators of one character -/

theorem singleton_infix_iff {c : Char} {s : Text} : [c] <:+: s ↔ c ∈ s := by
  constructor
  · intro h
    exact h.subset (by simp)
  · intro h
    obtain ⟨before, tail, rfl⟩ := List.append_of_mem h
    exact ⟨before, tail, by simp⟩

theorem isFirstCut_singleton_iff {c : Char} {s before tail : Text} :
    IsFirstCut [c] s before tail ↔ s = before ++ c :: tail ∧ c ∉ before := by
  constructor
  · intro h
    refine ⟨by simpa using h.eq, ?_⟩
    intro hmem
    obtain ⟨b, t, rfl⟩ := List.append_of_mem hmem
    have hle := h.first b (t ++ c :: tail) (by simp [h.eq])
    rw [List.length_append, List.length_cons] at hle
    omega
  · intro h
    obtain ⟨rfl, hnot⟩ := h
    refine ⟨by simp, fun b t heq => Nat.le_of_not_lt fun hlt => hnot ?_⟩
    have hlen : (b ++ [c]).length ≤ before.length := by
      rw [List.length_append, List.length_singleton]
      exact hlt
    have hwhole : b ++ [c] <+: before ++ c :: tail := ⟨t, heq.symm⟩
    have hb := List.prefix_of_prefix_length_le hwhole (List.prefix_append _ _) hlen
    exact hb.subset (by simp)

theorem isLastCut_singleton_iff {c : Char} {s before tail : Text} :
    IsLastCut [c] s before tail ↔ s = before ++ c :: tail ∧ c ∉ tail := by
  constructor
  · intro h
    refine ⟨by simpa using h.eq, ?_⟩
    intro hmem
    obtain ⟨b, t, rfl⟩ := List.append_of_mem hmem
    have hle := h.last (before ++ c :: b) t (by simp [h.eq])
    rw [List.length_append, List.length_cons] at hle
    omega
  · intro h
    obtain ⟨rfl, hnot⟩ := h
    refine ⟨by simp, fun b t heq => Nat.le_of_not_lt fun hlt => hnot ?_⟩
    have hlen : ([c] ++ t).length ≤ tail.length := by
      have hlen := congrArg List.length heq
      simp at hlen ⊢
      omega
    have hwhole : [c] ++ t <:+ before ++ c :: tail := ⟨b, by simp [heq]⟩
    have htail : tail <:+ before ++ c :: tail := ⟨before ++ [c], by simp⟩
    have ht := List.suffix_of_suffix_length_le hwhole htail hlen
    exact ht.subset (by simp)

/-! ## Starts -/

theorem after?_eq_some_iff {start s tail : Text} :
    after? start s = some tail ↔ s = start ++ tail := by
  induction start generalizing s with
  | nil => simp [after?]
  | cons c start ih =>
    cases s with
    | nil => simp [after?]
    | cons d s =>
      unfold after?
      split
      · rename_i hcd
        rw [ih, hcd, List.cons_append, List.cons_inj_right]
      · rename_i hcd
        simp [Ne.symm hcd]

theorem after?_eq_none_iff {start s : Text} :
    after? start s = none ↔ ∀ tail, s ≠ start ++ tail := by
  rw [Option.eq_none_iff_forall_ne_some]
  exact forall_congr' fun tail => not_congr after?_eq_some_iff

/-! ## The first cut -/

/-- A cut of a text with one more character at its start either starts there or
is a cut of the rest. -/
theorem eq_append_cons {separator rest b t : Text} {c : Char}
    (h : c :: rest = b ++ separator ++ t) :
    (b = [] ∧ c :: rest = separator ++ t) ∨ ∃ b', b = c :: b' ∧ rest = b' ++ separator ++ t := by
  cases b with
  | nil => exact .inl ⟨rfl, h⟩
  | cons d b =>
    rw [List.append_assoc, List.cons_append, List.cons.injEq] at h
    exact .inr ⟨b, by rw [h.1], by rw [h.2, List.append_assoc]⟩

theorem isFirstCut_of_cutFirst? {separator s b t : Text}
    (h : cutFirst? separator s = some (b, t)) : IsFirstCut separator s b t := by
  induction s generalizing b with
  | nil => simp [cutFirst?] at h
  | cons c rest ih =>
    unfold cutFirst? at h
    split at h
    · rename_i tail hstart
      obtain ⟨rfl, rfl⟩ : [] = b ∧ tail = t := by simpa using h
      exact ⟨after?_eq_some_iff.mp hstart, fun _ _ _ => Nat.zero_le _⟩
    · rename_i hstart
      obtain ⟨⟨b', t'⟩, hcut, heq⟩ := Option.map_eq_some_iff.mp h
      obtain ⟨rfl, rfl⟩ : c :: b' = b ∧ t' = t := by simpa using heq
      have hrest := ih hcut
      refine ⟨by rw [hrest.eq]; simp, ?_⟩
      intro b₂ t₂ h₂
      rcases eq_append_cons h₂ with ⟨rfl, hc⟩ | ⟨b₃, rfl, h₃⟩
      · exact absurd hc (after?_eq_none_iff.mp hstart t₂)
      · exact Nat.succ_le_succ (hrest.first _ _ h₃)

theorem cutFirst?_ne_none {separator s : Text} (hne : separator ≠ []) (h : separator <:+: s) :
    cutFirst? separator s ≠ none := by
  induction s with
  | nil =>
    obtain ⟨b, t, h⟩ := h
    simp [hne] at h
  | cons c rest ih =>
    unfold cutFirst?
    split
    · simp
    · rename_i hstart
      obtain ⟨b, t, h⟩ := h
      rcases eq_append_cons h.symm with ⟨-, hc⟩ | ⟨b', -, h'⟩
      · exact absurd hc (after?_eq_none_iff.mp hstart t)
      · simpa using ih ⟨b', t, h'.symm⟩

/-- The search for the first cut finds it. -/
theorem cutFirst?_eq_some_iff {separator s b t : Text} (hne : separator ≠ []) :
    cutFirst? separator s = some (b, t) ↔ IsFirstCut separator s b t := by
  refine ⟨isFirstCut_of_cutFirst?, ?_⟩
  intro h
  cases hcut : cutFirst? separator s with
  | none => exact absurd hcut (cutFirst?_ne_none hne ⟨b, t, h.eq.symm⟩)
  | some cut =>
    obtain ⟨rfl, rfl⟩ := (isFirstCut_of_cutFirst? hcut).unique h
    rfl

/-! ## The last cut -/

theorem not_infix_of_cutLast?_eq_none {separator s : Text} (hne : separator ≠ [])
    (h : cutLast? separator s = none) : ¬ separator <:+: s := by
  induction s with
  | nil => simpa using hne
  | cons c rest ih =>
    unfold cutLast? at h
    split at h
    · simp at h
    · rename_i hrest
      rw [Option.map_eq_none_iff] at h
      intro h
      obtain ⟨b, t, hcut⟩ := h
      rcases eq_append_cons hcut.symm with ⟨-, hc⟩ | ⟨b', -, h'⟩
      · exact after?_eq_none_iff.mp h t hc
      · exact ih hrest ⟨b', t, h'.symm⟩

theorem isLastCut_of_cutLast? {separator s b t : Text} (hne : separator ≠ [])
    (h : cutLast? separator s = some (b, t)) : IsLastCut separator s b t := by
  induction s generalizing b with
  | nil => simp [cutLast?] at h
  | cons c rest ih =>
    unfold cutLast? at h
    split at h
    · rename_i b' t' hcut
      obtain ⟨rfl, rfl⟩ : c :: b' = b ∧ t' = t := by simpa using h
      have hrest := ih hcut
      refine ⟨by rw [hrest.eq]; simp, ?_⟩
      intro b₂ t₂ h₂
      rcases eq_append_cons h₂ with ⟨rfl, -⟩ | ⟨b₃, rfl, h₃⟩
      · exact Nat.zero_le _
      · exact Nat.succ_le_succ (hrest.last _ _ h₃)
    · rename_i hnone
      obtain ⟨tail, hstart, heq⟩ := Option.map_eq_some_iff.mp h
      obtain ⟨rfl, rfl⟩ : [] = b ∧ tail = t := by simpa using heq
      refine ⟨after?_eq_some_iff.mp hstart, fun b₂ t₂ h₂ => ?_⟩
      rcases eq_append_cons h₂ with ⟨rfl, -⟩ | ⟨b₃, rfl, h₃⟩
      · exact Nat.le_refl _
      · exact absurd ⟨b₃, t₂, h₃.symm⟩ (not_infix_of_cutLast?_eq_none hne hnone)

/-- The search for the last cut finds it. -/
theorem cutLast?_eq_some_iff {separator s b t : Text} (hne : separator ≠ []) :
    cutLast? separator s = some (b, t) ↔ IsLastCut separator s b t := by
  refine ⟨isLastCut_of_cutLast? hne, ?_⟩
  intro h
  cases hcut : cutLast? separator s with
  | none => exact absurd ⟨b, t, h.eq.symm⟩ (not_infix_of_cutLast?_eq_none hne hcut)
  | some cut =>
    obtain ⟨rfl, rfl⟩ := (isLastCut_of_cutLast? hne hcut).unique h
    rfl

theorem cutLast?_eq_none_iff {separator s : Text} (hne : separator ≠ []) :
    cutLast? separator s = none ↔ ¬ separator <:+: s := by
  refine ⟨not_infix_of_cutLast?_eq_none hne, fun h => ?_⟩
  cases hcut : cutLast? separator s with
  | none => rfl
  | some cut => exact absurd ⟨cut.1, cut.2, (isLastCut_of_cutLast? hne hcut).eq.symm⟩ h

end Gamebook.Text
