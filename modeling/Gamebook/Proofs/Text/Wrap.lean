import Gamebook.Proofs.Text.Lines
import Gamebook.Proofs.Text.Wrap.Chunks
import Mathlib.Data.List.Forall2
set_option autoImplicit false

/-!
# Wrapped texts

A text is wrapped paragraph by paragraph into rows that fit.  Nothing but blanks goes lost or
comes to it, no paragraph is dropped or joined with another one, and a word that fits a row
stands in one row, unbroken.
-/

namespace Gamebook.Text

/-! ## Paragraphs -/

variable {width : Nat} {hw : 0 < width} {paragraph : Text}

theorem packs_chunks (hw : 0 < width) (paragraph : Text) :
    Packs width (chunks paragraph) (rows width hw true (chunks paragraph)) :=
  packs_rows hw true (chunks paragraph)

/-- A paragraph has its rows, or an empty one instead of none. -/
theorem wrapParagraph_cases (hw : 0 < width) (paragraph : Text) :
    (rows width hw true (chunks paragraph) = [] ∧ wrapParagraph width hw paragraph = [[]]) ∨
      (rows width hw true (chunks paragraph) ≠ [] ∧
        wrapParagraph width hw paragraph = rows width hw true (chunks paragraph)) := by
  rw [wrapParagraph]
  cases hrows : rows width hw true (chunks paragraph) with
  | nil => exact .inl ⟨rfl, rfl⟩
  | cons row more => exact .inr ⟨List.cons_ne_nil _ _, rfl⟩

theorem wrapParagraph_ne_nil (hw : 0 < width) (paragraph : Text) :
    wrapParagraph width hw paragraph ≠ [] := by
  rcases wrapParagraph_cases hw paragraph with ⟨-, hwrap⟩ | ⟨hsome, hwrap⟩
  · rw [hwrap]
    exact List.cons_ne_nil _ _
  · rwa [hwrap]

/-- Every row of a paragraph fits. -/
theorem length_le_of_mem_wrapParagraph {line : Text}
    (h : line ∈ wrapParagraph width hw paragraph) : line.length ≤ width := by
  rcases wrapParagraph_cases hw paragraph with ⟨-, hwrap⟩ | ⟨-, hwrap⟩ <;> rw [hwrap] at h
  · rw [List.mem_singleton.mp h]
    exact Nat.zero_le _
  · exact (packs_chunks hw paragraph).fits line h

/-- The rows of a paragraph hold what is not blank in it. -/
theorem solid_flatten_wrapParagraph (hw : 0 < width) (paragraph : Text) :
    solid (wrapParagraph width hw paragraph).flatten = solid paragraph := by
  have hsolid : solid (rows width hw true (chunks paragraph)).flatten = solid paragraph :=
    (packs_chunks hw paragraph).solid_eq.trans (solid_flatten_chunks paragraph)
  rcases wrapParagraph_cases hw paragraph with ⟨hnone, hwrap⟩ | ⟨-, hwrap⟩
  · rw [hwrap, ← hsolid, hnone]
    rfl
  · rw [hwrap, hsolid]

/-- Of a paragraph of nothing but gaps one empty row remains. -/
theorem wrapParagraph_of_gaps (h : ∀ c ∈ paragraph, isGap c = true) :
    wrapParagraph width hw paragraph = [[]] := by
  rcases wrapParagraph_cases hw paragraph with ⟨-, hwrap⟩ | ⟨hsome, -⟩
  · exact hwrap
  · exact absurd ((packs_chunks hw paragraph).eq_nil (atMostBlank_chunks h)) hsome

/-- A word that fits stands in one row of its paragraph. -/
theorem exists_row_of_isRun (hw : 0 < width) {before word after : Text}
    (h : IsRun before word after) (hword : isAllBlank word = false) (hfits : word.length ≤ width) :
    ∃ above left right below,
      wrapParagraph width hw (before ++ word ++ after) = above ++ (left ++ word ++ right) :: below ∧
        solid (above.flatten ++ left) = solid before := by
  have hne : word ≠ [] := by
    rintro rfl
    cases hword
  obtain ⟨front, back, hchunks, hfront⟩ := exists_chunks_of_isRun h hne
  have hpacks := packs_chunks hw (before ++ word ++ after)
  rw [hchunks] at hpacks
  obtain ⟨above, left, right, below, hrows, hsolid⟩ := hpacks.split hfits hword
  refine ⟨above, left, right, below, ?_, hsolid.trans hfront⟩
  rw [← hchunks] at hrows
  rcases wrapParagraph_cases hw (before ++ word ++ after) with ⟨hnone, -⟩ | ⟨-, hwrap⟩
  · exact absurd (hrows.symm.trans hnone)
      (List.append_ne_nil_of_right_ne_nil _ (List.cons_ne_nil _ _))
  · rw [hwrap, hrows]

/-! ## Paragraphs of a text -/

/-- Paragraphs hold what is not blank in a text. -/
theorem solid_flatten_paragraphs (s : Text) : solid (paragraphs s).flatten = solid s := by
  induction s with
  | nil => rfl
  | cons c rest ih =>
    by_cases hc : c = '\n'
    · subst hc
      rw [paragraphs, if_pos rfl, List.flatten_cons, List.nil_append, ih]
      rfl
    · obtain ⟨part, more, hrest, -⟩ := exists_paragraphs rest
      rw [paragraphs_cons hc hrest, List.flatten_cons, List.cons_append, ← List.flatten_cons,
        ← hrest, solid_cons, ih, ← solid_cons]

/-- The rows of paragraphs hold what is not blank in them. -/
theorem solid_flatten_flatMap (hw : 0 < width) (ps : List Text) :
    solid (ps.flatMap (wrapParagraph width hw)).flatten = solid ps.flatten := by
  induction ps with
  | nil => rfl
  | cons paragraph ps ih =>
    rw [List.flatMap_cons, List.flatten_append, solid_append, solid_flatten_wrapParagraph, ih,
      List.flatten_cons, solid_append]

/-- A run in a text is a run in its paragraph. -/
theorem IsRun.exists_paragraph {before word after : Text} (h : IsRun before word after) :
    ∃ front left right back, paragraphs (before ++ word ++ after) =
        front ++ (left ++ word ++ right) :: back ∧ IsRun left word right ∧
      solid (front.flatten ++ left) = solid before := by
  obtain ⟨front, left, hbefore, hleft⟩ := exists_paragraphs_concat before
  obtain ⟨right, back, hafter, hright⟩ := exists_paragraphs after
  have hword : paragraphs word = [] ++ [word] :=
    paragraphs_of_not_mem fun hmem => by cases h.no_gap _ hmem
  refine ⟨front, left, right, back, ?_, ⟨h.no_gap, ?_, ?_⟩, ?_⟩
  · rw [List.append_assoc, paragraphs_append hbefore (paragraphs_append hword hafter),
      List.append_assoc]
  · obtain ⟨start, rfl⟩ := hleft
    exact fun c hc => h.before c (List.mem_getLast?_append_of_mem_getLast? hc)
  · obtain ⟨rest, rfl⟩ := hright
    exact fun c hc => h.after c (List.mem_head?_append_of_mem_head? hc)
  · rw [← solid_flatten_paragraphs before, hbefore, List.flatten_append, List.flatten_singleton]

/-! ## Texts -/

theorem wrap_eq_flatMap {width : Int} (hw : 0 < width.toNat) (s : Text) :
    wrap width s = (paragraphs s).flatMap (wrapParagraph width.toNat hw) := by
  rw [wrap, dif_pos hw]

theorem length_le_of_mem_wrap {width : Int} (hw : 0 < width.toNat) {s line : Text}
    (h : line ∈ wrap width s) : line.length ≤ width.toNat := by
  rw [wrap_eq_flatMap hw, List.mem_flatMap] at h
  obtain ⟨paragraph, -, hline⟩ := h
  exact length_le_of_mem_wrapParagraph hline

theorem solid_flatten_wrap {width : Int} (hw : 0 < width.toNat) (s : Text) :
    solid (wrap width s).flatten = solid s := by
  rw [wrap_eq_flatMap hw, solid_flatten_flatMap, solid_flatten_paragraphs]

/-- If rows hold the characters of a text, and those before a word in a row are those before it in
the text, then so are those after it. -/
theorem solid_below {before word after left right : Text} {above below : List Text}
    (hall : solid (above ++ (left ++ word ++ right) :: below).flatten =
      solid (before ++ word ++ after))
    (hleft : solid (above.flatten ++ left) = solid before) :
    solid (right ++ below.flatten) = solid after := by
  have hrows : (above ++ (left ++ word ++ right) :: below).flatten =
      (above.flatten ++ left) ++ (word ++ (right ++ below.flatten)) := by simp
  rw [hrows, List.append_assoc before, solid_append, solid_append word, hleft, solid_append before,
    solid_append word] at hall
  exact List.append_cancel_left (List.append_cancel_left hall)

/-- A word that fits stands in one row of its text, at its place among the characters. -/
theorem exists_line_of_isRun {width : Int} (hw : 0 < width.toNat) {before word after : Text}
    (h : IsRun before word after) (hword : isAllBlank word = false)
    (hfits : word.length ≤ width.toNat) :
    ∃ above left right below,
      wrap width (before ++ word ++ after) = above ++ (left ++ word ++ right) :: below ∧
        solid (above.flatten ++ left) = solid before ∧
        solid (right ++ below.flatten) = solid after := by
  obtain ⟨front, left, right, back, hparagraphs, hplace, hbefore⟩ := h.exists_paragraph
  obtain ⟨above, leftRow, rightRow, below, hrows, habove⟩ :=
    exists_row_of_isRun hw hplace hword hfits
  have heq : wrap width (before ++ word ++ after) =
      (front.flatMap (wrapParagraph width.toNat hw) ++ above) ++
        (leftRow ++ word ++ rightRow) ::
          (below ++ back.flatMap (wrapParagraph width.toNat hw)) := by
    rw [wrap_eq_flatMap hw, hparagraphs, List.flatMap_append, List.flatMap_cons, hrows]
    simp
  have hleft : solid ((front.flatMap (wrapParagraph width.toNat hw) ++ above).flatten ++
      leftRow) = solid before := by
    rw [List.flatten_append, List.append_assoc, solid_append, solid_flatten_flatMap, habove,
      ← solid_append, hbefore]
  exact ⟨_, leftRow, rightRow, _, heq, hleft, solid_below (heq ▸ solid_flatten_wrap hw _) hleft⟩

/-- A text that is wrapped comes out in rows that fit, for every width there is.  The rows hold the
characters of the text that are not blank, in order, and every paragraph has rows of its own that
hold its characters, just an empty one if it is nothing but gaps.  A run between gaps that is not
all blank and fits a row stands unbroken in one row, at its place among the characters. -/
theorem wrap_keeps_words {width : Int} (hwidth : 1 ≤ width) (s : Text) :
    (∀ line ∈ wrap width s, (line.length : Int) ≤ width) ∧
    solid (wrap width s).flatten = solid s ∧
    (∃ parts : List (List Text), wrap width s = parts.flatten ∧
      List.Forall₂ (fun paragraph lines => lines ≠ [] ∧ solid lines.flatten = solid paragraph ∧
        ((∀ c ∈ paragraph, isGap c = true) → lines = [[]])) (s.splitOn '\n') parts) ∧
    ∀ before word after, s = before ++ word ++ after → IsRun before word after →
      (∃ c ∈ word, isBlank c = false) → (word.length : Int) ≤ width →
      ∃ above left right below,
        wrap width s = above ++ (left ++ word ++ right) :: below ∧
          solid (above.flatten ++ left) = solid before ∧
          solid (right ++ below.flatten) = solid after := by
  have hw : 0 < width.toNat := by omega
  refine ⟨?_, solid_flatten_wrap hw s, ?_, ?_⟩
  · intro line hline
    have hle := length_le_of_mem_wrap hw hline
    omega
  · refine ⟨(paragraphs s).map (wrapParagraph width.toNat hw), wrap_eq_flatMap hw s, ?_⟩
    rw [← paragraphs_eq_splitOn, List.forall₂_map_right_iff, List.forall₂_same]
    exact fun paragraph _ => ⟨wrapParagraph_ne_nil hw paragraph,
      solid_flatten_wrapParagraph hw paragraph, wrapParagraph_of_gaps⟩
  · rintro before word after rfl hrun ⟨c, hc, hsolid⟩ hfits
    have hword : isAllBlank word = false := by
      rw [isAllBlank, List.all_eq_false]
      exact ⟨c, hc, by simp [hsolid]⟩
    exact exists_line_of_isRun hw hrun hword (by omega)

/-- In rows of four, the tab goes, "go" is in a row, "ahead" is cut for want of room, and the
paragraph that is only a vertical tab keeps an empty row. -/
theorem wrap_keeps_words_ahead :
    (1 : Int) ≤ 4 ∧ IsRun "\t".toList "go".toList " ahead\n\x0b".toList ∧
      wrap 4 "\tgo ahead\n\x0b".toList = ["go a".toList, "head".toList, []] ∧
      ∃ above left right below,
        wrap 4 "\tgo ahead\n\x0b".toList = above ++ (left ++ "go".toList ++ right) :: below ∧
          solid (above.flatten ++ left) = [] ∧
          solid (right ++ below.flatten) = "ahead".toList := by
  have hrun : IsRun "\t".toList "go".toList " ahead\n\x0b".toList :=
    ⟨by simp [isGap], by simp [isGap], by simp [isGap]⟩
  have hword : ∃ c ∈ "go".toList, isBlank c = false := ⟨'g', List.mem_cons_self, rfl⟩
  have hwidth : (1 : Int) ≤ 4 := by decide
  obtain ⟨-, -, -, hwords⟩ := wrap_keeps_words hwidth "\tgo ahead\n\x0b".toList
  exact ⟨hwidth, hrun, by decide +kernel, hwords _ _ _ rfl hrun hword (by decide)⟩

end Gamebook.Text
