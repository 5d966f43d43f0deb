import Gamebook.Proofs.Text.Wrap.Rows
import Mathlib.Data.List.SplitBy
set_option autoImplicit false

/-!
# Chunks of paragraphs

The chunks of a paragraph are its characters again, but that spaces stand for its gaps, a tab
for as many as there are to the next column.  A run between gaps is a chunk of its own.
-/

namespace Gamebook.Text

theorem isBlank_of_isGap {c : Char} (h : isGap c = true) : isBlank c = true := by
  simp only [isGap, isBlank, Bool.or_eq_true, Bool.and_eq_true, beq_iff_eq, decide_eq_true_eq] at h ⊢
  rcases h with rfl | h
  · exact .inl (.inl (.inl (.inl (.inl (.inl (.inl (.inl (.inl (.inr (by decide))))))))))
  · omega

/-! ## Spaces for gaps -/

/-- The text that is cut into chunks, from a column on. -/
def spaced (column : Nat) (s : Text) : Text :=
  (expandTabs column s).map fun c => if isGap c then ' ' else c

/-- Neighbours that stay in one chunk: two spaces, or no space. -/
def isAlike (a b : Char) : Bool := (a == ' ') == (b == ' ')

theorem chunks_eq (paragraph : Text) :
    chunks paragraph = (spaced 0 paragraph).splitBy isAlike := rfl

/-- A gap becomes spaces, one at least. -/
theorem spaced_cons_of_isGap {c : Char} (hc : isGap c = true) (column : Nat) :
    ∃ n column', ∀ rest, spaced column (c :: rest) =
      List.replicate (n + 1) ' ' ++ spaced column' rest := by
  by_cases htab : c = '\t'
  · have hwidth : 8 - column % 8 = 7 - column % 8 + 1 := by omega
    refine ⟨7 - column % 8, 0, fun rest => ?_⟩
    rw [spaced, expandTabs, if_pos htab, List.map_append, List.map_replicate, hwidth]
    rfl
  · by_cases hbreak : c = '\n' ∨ c = '\r'
    · refine ⟨0, 0, fun rest => ?_⟩
      rw [spaced, expandTabs, if_neg htab, if_pos hbreak, List.map_cons, if_pos hc]
      rfl
    · refine ⟨0, column + 1, fun rest => ?_⟩
      rw [spaced, expandTabs, if_neg htab, if_neg hbreak, List.map_cons, if_pos hc]
      rfl

/-- Any other character stays. -/
theorem spaced_cons {c : Char} (hc : isGap c = false) (column : Nat) (rest : Text) :
    spaced column (c :: rest) = c :: spaced (column + 1) rest := by
  have htab : c ≠ '\t' := by
    rintro rfl
    cases hc
  have hbreak : ¬ (c = '\n' ∨ c = '\r') := by
    rintro (rfl | rfl) <;> cases hc
  rw [spaced, expandTabs, if_neg htab, if_neg hbreak, List.map_cons, if_neg (by simp [hc])]
  rfl

theorem spaced_append (column : Nat) (s : Text) :
    ∃ column', ∀ rest, spaced column (s ++ rest) = spaced column s ++ spaced column' rest := by
  -- the column is all that the rest takes over from the text before it
  induction s generalizing column with
  | nil => exact ⟨column, fun rest => rfl⟩
  | cons c s ih =>
    cases hc : isGap c with
    | false =>
      obtain ⟨column', happend⟩ := ih (column + 1)
      exact ⟨column', fun rest => by
        rw [List.cons_append, spaced_cons hc, spaced_cons hc, happend, List.cons_append]⟩
    | true =>
      obtain ⟨n, next, hgap⟩ := spaced_cons_of_isGap hc column
      obtain ⟨column', happend⟩ := ih next
      exact ⟨column', fun rest => by
        rw [List.cons_append, hgap, hgap, happend, List.append_assoc]⟩

theorem spaced_of_no_gap {s : Text} (h : ∀ c ∈ s, isGap c = false) (column : Nat) :
    spaced column s = s := by
  induction s generalizing column with
  | nil => rfl
  | cons c rest ih =>
    obtain ⟨hc, hrest⟩ := List.forall_mem_cons.mp h
    rw [spaced_cons hc, ih hrest]

theorem isAllBlank_replicate (n : Nat) : isAllBlank (List.replicate n ' ') = true := by
  rw [isAllBlank, List.all_eq_true]
  intro c hc
  rw [List.eq_of_mem_replicate hc]
  rfl

/-- Gaps are blank, and so are spaces. -/
theorem solid_spaced (column : Nat) (s : Text) : solid (spaced column s) = solid s := by
  induction s generalizing column with
  | nil => rfl
  | cons c rest ih =>
    cases hc : isGap c with
    | false => rw [spaced_cons hc, solid_cons, ih, ← solid_cons]
    | true =>
      obtain ⟨n, next, hgap⟩ := spaced_cons_of_isGap hc column
      have hblank : isAllBlank [c] = true := by simpa [isAllBlank] using isBlank_of_isGap hc
      rw [hgap, solid_append, solid_of_isAllBlank (isAllBlank_replicate _), ih, solid_cons,
        solid_of_isAllBlank hblank]

/-- A text that ends in a gap ends in a space. -/
theorem getLast?_spaced {s : Text} (h : ∀ c ∈ s.getLast?, isGap c = true) (column : Nat) :
    ∀ d ∈ (spaced column s).getLast?, d = ' ' := by
  rcases List.eq_nil_or_concat' s with rfl | ⟨front, c, rfl⟩
  · nofun
  · have hc : isGap c = true := h c (List.getLast?_concat ..)
    obtain ⟨next, happend⟩ := spaced_append column front
    obtain ⟨n, _, hgap⟩ := spaced_cons_of_isGap hc next
    have hspaces : spaced next [c] = List.replicate (n + 1) ' ' :=
      (hgap []).trans (List.append_nil _)
    intro d hd
    rw [happend, hspaces, List.replicate_succ', ← List.append_assoc, List.getLast?_concat] at hd
    exact (Option.some.inj hd).symm

/-- A text that starts with a gap starts with a space. -/
theorem head?_spaced {s : Text} (h : ∀ c ∈ s.head?, isGap c = true) (column : Nat) :
    ∀ d ∈ (spaced column s).head?, d = ' ' := by
  cases s with
  | nil => nofun
  | cons c rest =>
    obtain ⟨n, next, hgap⟩ := spaced_cons_of_isGap (h c rfl) column
    intro d hd
    rw [hgap, List.replicate_succ, List.cons_append, List.head?_cons] at hd
    exact (Option.some.inj hd).symm

/-! ## Chunks -/

/-- Chunks hold what is not blank in a paragraph. -/
theorem solid_flatten_chunks (paragraph : Text) :
    solid (chunks paragraph).flatten = solid paragraph := by
  rw [chunks_eq, List.flatten_splitBy, solid_spaced]

/-- A run of characters that are no gaps is as long as it can be, at its place in a text. -/
structure IsRun (before run after : Text) : Prop where
  no_gap : ∀ c ∈ run, isGap c = false
  before : ∀ c ∈ before.getLast?, isGap c = true
  after : ∀ c ∈ after.head?, isGap c = true

/-- A run is a chunk of its own. -/
theorem exists_chunks_of_isRun {before run after : Text} (h : IsRun before run after)
    (hne : run ≠ []) : ∃ front back, chunks (before ++ run ++ after) = front ++ run :: back ∧
      solid front.flatten = solid before := by
  obtain ⟨column, hbefore⟩ := spaced_append 0 before
  obtain ⟨column', hrun⟩ := spaced_append column run
  have hspace : ∀ c ∈ run, (c == ' ') = false := by
    intro c hc
    rw [beq_eq_false_iff_ne]
    rintro rfl
    cases h.no_gap _ hc
  have hchain : run.IsChain fun a b => isAlike a b = true := by
    refine List.Pairwise.isChain (List.pairwise_of_forall_mem_list fun a ha b hb => ?_)
    rw [isAlike, hspace a ha, hspace b hb]
    rfl
  have hleft : ∀ c ∈ (spaced 0 before).getLast?, ∀ d ∈ (run ++ spaced column' after).head?,
      isAlike c d = false := by
    intro c hc d hd
    rw [List.head?_append_of_ne_nil _ hne] at hd
    rw [getLast?_spaced h.before 0 c hc, isAlike, hspace d (List.mem_of_head? hd)]
    rfl
  have hright : ∀ c ∈ run.getLast?, ∀ d ∈ (spaced column' after).head?, isAlike c d = false := by
    intro c hc d hd
    rw [head?_spaced h.after column' d hd, isAlike, hspace c (List.mem_of_getLast? hc)]
    rfl
  refine ⟨(spaced 0 before).splitBy isAlike, (spaced column' after).splitBy isAlike, ?_, ?_⟩
  · rw [chunks_eq, List.append_assoc, hbefore, hrun, spaced_of_no_gap h.no_gap,
      List.splitBy_append hleft, List.splitBy_append hright, List.splitBy_of_isChain hne hchain]
    rfl
  · rw [List.flatten_splitBy, solid_spaced]

theorem exists_spaced_of_gaps {s : Text} (h : ∀ c ∈ s, isGap c = true) (column : Nat) :
    ∃ n, spaced column s = List.replicate n ' ' := by
  induction s generalizing column with
  | nil => exact ⟨0, rfl⟩
  | cons c rest ih =>
    obtain ⟨hc, hrest⟩ := List.forall_mem_cons.mp h
    obtain ⟨n, next, hgap⟩ := spaced_cons_of_isGap hc column
    obtain ⟨m, hm⟩ := ih hrest next
    exact ⟨n + 1 + m, by rw [hgap, hm, List.replicate_append_replicate]⟩

/-- A paragraph of nothing but gaps is one blank chunk, or none if it is empty. -/
theorem atMostBlank_chunks {paragraph : Text} (h : ∀ c ∈ paragraph, isGap c = true) :
    AtMostBlank (chunks paragraph) := by
  obtain ⟨n, hn⟩ := exists_spaced_of_gaps h 0
  rw [chunks_eq, hn]
  cases n with
  | zero => exact ⟨Nat.zero_le _, nofun⟩
  | succ n =>
    have hchain : (List.replicate (n + 1) ' ').IsChain fun a b => isAlike a b = true := by
      refine List.Pairwise.isChain (List.pairwise_replicate.mpr ?_)
      exact .inr (by decide)
    have hne : List.replicate (n + 1) ' ' ≠ [] := List.cons_ne_nil _ _
    rw [List.splitBy_of_isChain hne hchain]
    exact ⟨Nat.le_refl _, by simpa using isAllBlank_replicate (n + 1)⟩

end Gamebook.Text
