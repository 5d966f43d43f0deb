import Gamebook.Proofs.Text.Trim
set_option autoImplicit false

/-!
# Lines of texts

The lines of a text hold no line breaks, and lines without line breaks are read back
from the text that holds each of them with a line feed after it.  The paragraphs of a
text lie between its line feeds, and joining undoes the cut into paragraphs.
-/

namespace Gamebook.Text

/-- The text stays in one line. -/
def IsLine (s : Text) : Prop := ∀ c ∈ s, isLineBreak c = false

theorem isLine_iff_all (s : Text) : IsLine s ↔ (s.all fun c => !isLineBreak c) = true := by
  simp [IsLine]

instance (s : Text) : Decidable (IsLine s) := decidable_of_iff' _ (isLine_iff_all s)

/-! ## Lines that are read -/

/-- No line of a text has a line break in it. -/
theorem isLine_of_mem_lines {s line : Text} (h : line ∈ lines s) : IsLine line := by
  fun_induction lines s generalizing line with
  | case1 => simp at h
  | case2 rest ih =>
    rcases List.mem_cons.mp h with rfl | h
    · exact fun c hc => absurd hc List.not_mem_nil
    · exact ih h
  | case3 c rest hpair hc ih =>
    rcases List.mem_cons.mp h with rfl | h
    · exact fun c hc => absurd hc List.not_mem_nil
    · exact ih h
  | case4 c rest hpair hc hnil ih =>
    rw [List.mem_singleton.mp h]
    intro d hd
    rw [List.mem_singleton.mp hd]
    exact Bool.eq_false_iff.mpr hc
  | case5 c rest hpair hc first more hlines ih =>
    rcases List.mem_cons.mp h with rfl | h
    · intro d hd
      rcases List.mem_cons.mp hd with rfl | hd
      · exact Bool.eq_false_iff.mpr hc
      · exact ih (hlines ▸ List.mem_cons_self) d hd
    · exact ih (hlines ▸ List.mem_cons_of_mem _ h)

/-! ## Lines that are written -/

theorem lines_cons_of_not_lineBreak {c : Char} (hc : isLineBreak c = false) {rest first : Text}
    {more : List Text} (h : lines rest = first :: more) :
    lines (c :: rest) = (c :: first) :: more := by
  rw [lines, if_neg (Bool.eq_false_iff.mp hc), h]
  rintro rest' rfl
  cases hc

/-- A line with a line feed after it is read as the first line. -/
theorem lines_append_newline {line : Text} (h : IsLine line) (rest : Text) :
    lines (line ++ '\n' :: rest) = line :: lines rest := by
  induction line with
  | nil =>
    rw [List.nil_append, lines, if_pos (by decide)]
    simp
  | cons c line ih =>
    have hrest := ih fun d hd => h d (List.mem_cons_of_mem _ hd)
    exact lines_cons_of_not_lineBreak (h c List.mem_cons_self) hrest

theorem unlines_cons (line : Text) (rest : List Text) :
    unlines (line :: rest) = line ++ '\n' :: unlines rest := by
  rw [unlines, List.flatMap_cons, List.append_assoc]
  rfl

theorem unlines_singleton (line : Text) : unlines [line] = line ++ ['\n'] := by simp [unlines]

theorem unlines_append (front back : List Text) :
    unlines (front ++ back) = unlines front ++ unlines back :=
  List.flatMap_append

/-- Lines without line breaks survive being written and read. -/
theorem lines_unlines {ls : List Text} (h : ∀ line ∈ ls, IsLine line) :
    lines (unlines ls) = ls := by
  induction ls with
  | nil => rfl
  | cons line rest ih =>
    rw [unlines_cons, lines_append_newline (h line List.mem_cons_self),
      ih fun other hother => h other (List.mem_cons_of_mem _ hother)]

/-! ## Paragraphs -/

theorem paragraphs_eq_splitOn (s : Text) : paragraphs s = s.splitOn '\n' := by
  fun_induction paragraphs s with
  | case1 => rfl
  | case2 rest ih => rw [ih, List.splitOn_cons_eq_if_modifyHead, if_pos (by decide)]
  | case3 c rest hc hnil ih => exact absurd (ih.symm.trans hnil) (List.splitOn_ne_nil _ _)
  | case4 c rest hc first more hparts ih =>
    have hbreak : ¬ (c == '\n') = true := by simpa using hc
    rw [List.splitOn_cons_eq_if_modifyHead, if_neg hbreak, ← ih, hparts]
    rfl

/-- No paragraph has a line feed in it. -/
theorem newline_not_mem_of_mem_paragraphs {s part : Text} (h : part ∈ paragraphs s) :
    '\n' ∉ part := by
  fun_induction paragraphs s generalizing part with
  | case1 =>
    rw [List.mem_singleton.mp h]
    exact List.not_mem_nil
  | case2 rest ih =>
    rcases List.mem_cons.mp h with rfl | h
    · exact List.not_mem_nil
    · exact ih h
  | case3 c rest hc hnil ih =>
    rw [List.mem_singleton.mp h, List.mem_singleton]
    exact Ne.symm hc
  | case4 c rest hc first more hparts ih =>
    rcases List.mem_cons.mp h with rfl | h
    · rw [List.mem_cons, not_or]
      exact ⟨Ne.symm hc, ih (hparts ▸ List.mem_cons_self)⟩
    · exact ih (hparts ▸ List.mem_cons_of_mem _ h)

theorem joinLines_singleton (line : Text) : joinLines [line] = line :=
  List.intercalate_singleton

theorem joinLines_cons_cons (line next : Text) (more : List Text) :
    joinLines (line :: next :: more) = line ++ '\n' :: joinLines (next :: more) := by
  rw [joinLines, List.intercalate_cons_cons, List.append_assoc]
  rfl

theorem joinLines_paragraphs (s : Text) : joinLines (paragraphs s) = s := by
  rw [paragraphs_eq_splitOn]
  exact List.intercalate_splitOn '\n'

/-- The paragraphs of joined lines are these lines, but no line and one empty line give
the same text. -/
theorem mem_paragraphs_joinLines {ls : List Text} (h : ∀ line ∈ ls, '\n' ∉ line) {part : Text}
    (hpart : part ∈ paragraphs (joinLines ls)) : part = [] ∨ part ∈ ls := by
  by_cases hls : ls = []
  · subst hls
    exact .inl (List.mem_singleton.mp hpart)
  · rw [paragraphs_eq_splitOn, joinLines, List.splitOn_intercalate '\n' h hls] at hpart
    exact .inr hpart

theorem prefix_joinLines (first : Text) (more : List Text) : first <+: joinLines (first :: more) := by
  cases more with
  | nil => exact ⟨[], (List.append_nil _).trans (joinLines_singleton first).symm⟩
  | cons next more =>
    rw [joinLines_cons_cons]
    exact List.prefix_append _ _

theorem suffix_joinLines (front : List Text) (last : Text) :
    last <:+ joinLines (front ++ [last]) := by
  induction front with
  | nil => exact ⟨[], (joinLines_singleton last).symm⟩
  | cons line front ih =>
    obtain ⟨next, more, hmore⟩ : ∃ next more, front ++ [last] = next :: more :=
      List.exists_cons_of_ne_nil (List.append_ne_nil_of_right_ne_nil _ (List.cons_ne_nil _ _))
    rw [List.cons_append, hmore, joinLines_cons_cons]
    rw [hmore] at ih
    exact ih.trans ((List.suffix_cons '\n' _).trans (List.suffix_append _ _))

theorem paragraphs_cons {c : Char} (hc : c ≠ '\n') {rest part : Text} {more : List Text}
    (h : paragraphs rest = part :: more) : paragraphs (c :: rest) = (c :: part) :: more := by
  rw [paragraphs, if_neg hc, h]

theorem paragraphs_of_not_mem {s : Text} (h : '\n' ∉ s) : paragraphs s = [s] := by
  have hsplit := List.splitOn_intercalate '\n' (List.forall_mem_singleton.mpr h)
    (List.cons_ne_nil s [])
  rwa [List.intercalate_singleton, ← paragraphs_eq_splitOn] at hsplit

theorem exists_paragraphs (s : Text) :
    ∃ first more, paragraphs s = first :: more ∧ first <+: s := by
  obtain ⟨first, more, h⟩ := List.exists_cons_of_ne_nil
    (paragraphs_eq_splitOn s ▸ List.splitOn_ne_nil '\n' s)
  refine ⟨first, more, h, ?_⟩
  have hfirst := prefix_joinLines first more
  rwa [← h, joinLines_paragraphs] at hfirst

theorem exists_paragraphs_concat (s : Text) :
    ∃ front last, paragraphs s = front ++ [last] ∧ last <:+ s := by
  have hne : paragraphs s ≠ [] := paragraphs_eq_splitOn s ▸ List.splitOn_ne_nil '\n' s
  refine ⟨(paragraphs s).dropLast, (paragraphs s).getLast hne,
    (List.dropLast_append_getLast hne).symm, ?_⟩
  have hlast := suffix_joinLines (paragraphs s).dropLast ((paragraphs s).getLast hne)
  rwa [List.dropLast_append_getLast hne, joinLines_paragraphs] at hlast

/-- Of a text put together from two, the last paragraph of the one and the first paragraph of the
other become one. -/
theorem paragraphs_append {s t first last : Text} {front more : List Text}
    (hs : paragraphs s = front ++ [last]) (ht : paragraphs t = first :: more) :
    paragraphs (s ++ t) = front ++ (last ++ first) :: more := by
  -- a line feed at the start of `s` splits off a paragraph, any other character goes to the first
  -- one, which is the last one as well if there is no other
  induction s generalizing front last with
  | nil =>
    obtain ⟨rfl, hlast⟩ := List.append_inj' ((List.nil_append _).trans hs) rfl
    obtain rfl := (List.cons.inj hlast).1
    exact ht
  | cons c rest ih =>
    obtain ⟨part, parts, hrest, -⟩ := exists_paragraphs rest
    by_cases hc : c = '\n'
    · rw [paragraphs, if_pos hc] at hs
      cases front with
      | nil => rw [hrest] at hs; simp at hs
      | cons line front =>
        obtain ⟨rfl, hrest⟩ := List.cons.inj hs
        rw [List.cons_append, paragraphs, if_pos hc, ih hrest, List.cons_append]
    · rw [paragraphs_cons hc hrest] at hs
      cases front with
      | nil =>
        obtain ⟨rfl, rfl⟩ := List.cons.inj hs
        have hconcat : paragraphs rest = [] ++ [part] := hrest
        exact paragraphs_cons hc (ih hconcat)
      | cons line front =>
        obtain ⟨rfl, rfl⟩ := List.cons.inj hs
        have hconcat : paragraphs rest = (part :: front) ++ [last] := hrest
        exact paragraphs_cons hc (ih hconcat)

end Gamebook.Text
