import Gamebook.Text.Wrap
import Mathlib.Data.List.Basic
set_option autoImplicit false

/-!
# Rows of chunks

Packing goes on in passes.  A pass takes the chunks of one row, as many as fit, and perhaps the
start of a chunk that is wider than any row; then a blank chunk may be dropped at the end of the
row and at the start of what is left.  What a pass can do is said here once, and what holds of
all rows follows by induction over the passes: every row fits, nothing but blanks goes lost, and
a chunk that is not blank stays whole if any row has room for it.
-/

namespace Gamebook.Text

/-! ## What is not blank -/

/-- The characters of a text that are not blank. -/
def solid (s : Text) : Text := s.filter fun c => !isBlank c

theorem solid_append (s t : Text) : solid (s ++ t) = solid s ++ solid t :=
  List.filter_append s t

theorem solid_cons (c : Char) (s : Text) : solid (c :: s) = solid [c] ++ solid s :=
  solid_append [c] s

theorem solid_of_isAllBlank {s : Text} (h : isAllBlank s = true) : solid s = [] := by
  rw [isAllBlank, List.all_eq_true] at h
  exact List.filter_eq_nil_iff.mpr fun c hc => by simp [h c hc]

/-! ## Chunks that are taken -/

/-- The chunks that fit are taken in order, and the next one has no room left. -/
theorem takeFitting_spec (room : Nat) (ws : List Text) :
    (takeFitting room ws).1 ++ (takeFitting room ws).2.1 = ws ∧
      (takeFitting room ws).1.flatten.length + (takeFitting room ws).2.2 = room := by
  induction ws generalizing room with
  | nil => exact ⟨rfl, Nat.zero_add room⟩
  | cons w ws ih =>
    rw [takeFitting]
    split
    · rename_i hfits
      obtain ⟨happend, hroom⟩ := ih (room - w.length)
      refine ⟨congrArg (w :: ·) happend, ?_⟩
      show (w ++ (takeFitting (room - w.length) ws).1.flatten).length +
        (takeFitting (room - w.length) ws).2.2 = room
      rw [List.length_append]
      omega
    · exact ⟨rfl, Nat.zero_add room⟩

/-- The chunks of a row and the chunks that are left. -/
inductive TakesRow (width : Nat) : List Text → List Text → List Text → Prop where
  /-- whole chunks only -/
  | whole {taken rest : List Text} (fits : taken.flatten.length ≤ width) :
      TakesRow width (taken ++ rest) taken rest
  /-- the last one is the start of a chunk that is wider than a row -/
  | cut {taken rest : List Text} {start more : Text}
      (fits : taken.flatten.length + start.length ≤ width)
      (wide : width < (start ++ more).length) :
      TakesRow width (taken ++ (start ++ more) :: rest) (taken ++ [start]) (more :: rest)

theorem takesRow_takeRow (width : Nat) (ws : List Text) :
    TakesRow width ws (takeRow width ws).1 (takeRow width ws).2 := by
  obtain ⟨happend, hroom⟩ := takeFitting_spec width ws
  rw [takeRow]
  generalize takeFitting width ws = found at happend hroom
  obtain ⟨taken, rest, left⟩ := found
  subst happend
  cases rest with
  | nil => exact .whole (hroom ▸ Nat.le_add_right _ _)
  | cons w rest =>
    simp only at hroom ⊢
    split
    · rename_i hwide
      have hsplit : w.take left ++ w.drop left = w := List.take_append_drop left w
      have hfits : taken.flatten.length + (w.take left).length ≤ width := by
        rw [List.length_take]
        omega
      conv => arg 2; rw [← hsplit]
      exact .cut hfits (hsplit.symm ▸ hwide)
    · exact .whole (by omega)

namespace TakesRow

variable {width : Nat} {ws row rest front back : List Text} {word : Text}

theorem fits (h : TakesRow width ws row rest) : row.flatten.length ≤ width := by
  cases h with
  | whole fits => exact fits
  | cut fits wide => simpa using fits

theorem flatten_eq (h : TakesRow width ws row rest) : row.flatten ++ rest.flatten = ws.flatten := by
  cases h <;> simp

/-- A chunk for which a row has room is not cut: it is in the row or left. -/
theorem split (h : TakesRow width (front ++ word :: back) row rest) (hword : word.length ≤ width) :
    (∃ after, row = front ++ word :: after) ∨
      ∃ before, rest = before ++ word :: back ∧ row.flatten ++ before.flatten = front.flatten := by
  generalize hws : front ++ word :: back = ws at h
  cases h with
  | whole fits =>
    rcases List.append_eq_append_iff.mp hws with ⟨more, rfl, hmore⟩ | ⟨more, rfl, rfl⟩
    · cases more with
      | nil => exact .inr ⟨[], hmore.symm, by simp⟩
      | cons first more =>
        obtain ⟨rfl, -⟩ := List.cons.inj hmore
        exact .inl ⟨more, rfl⟩
    · exact .inr ⟨more, rfl, by simp⟩
  | @cut taken rest start tail fits wide =>
    -- the chunk that is cut is wider than a row, so that it is another one
    have hne : word ≠ start ++ tail := by
      rintro rfl
      omega
    rcases List.append_eq_append_iff.mp hws with ⟨more, rfl, hmore⟩ | ⟨more, rfl, hmore⟩
    · cases more with
      | nil => exact absurd (List.cons.inj hmore).1 hne
      | cons first more =>
        obtain ⟨rfl, -⟩ := List.cons.inj hmore
        exact .inl ⟨more ++ [start], by simp⟩
    · cases more with
      | nil => exact absurd (List.cons.inj hmore).1.symm hne
      | cons first more =>
        obtain ⟨rfl, rfl⟩ := List.cons.inj hmore
        exact .inr ⟨tail :: more, rfl, by simp⟩

end TakesRow

/-! ## Blanks that are dropped -/

/-- A row loses its last chunk at the end, if that is blank. -/
theorem dropBlankEnd_cases (row : List Text) : dropBlankEnd row = row ∨
    ∃ blank, isAllBlank blank = true ∧ row = dropBlankEnd row ++ [blank] := by
  rw [dropBlankEnd]
  cases hlast : row.getLast? with
  | none => exact .inl rfl
  | some last =>
    simp only
    split
    · rename_i hblank
      obtain ⟨front, rfl⟩ := List.getLast?_eq_some_iff.mp hlast
      exact .inr ⟨last, hblank, by rw [List.dropLast_concat]⟩
    · exact .inl rfl

/-- Chunks lose their first one at the start, if that is blank. -/
theorem dropBlankStart_cases (ws : List Text) : dropBlankStart ws = ws ∨
    ∃ blank, isAllBlank blank = true ∧ ws = blank :: dropBlankStart ws := by
  cases ws with
  | nil => exact .inl rfl
  | cons w rest =>
    rw [dropBlankStart]
    split
    · rename_i hblank
      exact .inr ⟨w, hblank, rfl⟩
    · exact .inl rfl

theorem solid_flatten_dropBlankEnd (row : List Text) :
    solid (dropBlankEnd row).flatten = solid row.flatten := by
  rcases dropBlankEnd_cases row with hsame | ⟨blank, hblank, hrow⟩
  · rw [hsame]
  · conv_rhs => rw [hrow, List.flatten_append, List.flatten_singleton, solid_append,
      solid_of_isAllBlank hblank, List.append_nil]

theorem solid_flatten_dropBlankStart (ws : List Text) :
    solid (dropBlankStart ws).flatten = solid ws.flatten := by
  rcases dropBlankStart_cases ws with hsame | ⟨blank, hblank, hws⟩
  · rw [hsame]
  · conv_rhs => rw [hws, List.flatten_cons, solid_append, solid_of_isAllBlank hblank,
      List.nil_append]

theorem length_flatten_dropBlankEnd_le (row : List Text) :
    (dropBlankEnd row).flatten.length ≤ row.flatten.length := by
  rcases dropBlankEnd_cases row with hsame | ⟨blank, -, hrow⟩
  · exact Nat.le_of_eq (by rw [hsame])
  · conv_rhs => rw [hrow, List.flatten_append, List.length_append]
    exact Nat.le_add_right _ _

/-- A chunk that is not blank stays in its row. -/
theorem exists_dropBlankEnd {word : Text} (hword : isAllBlank word = false)
    (front after : List Text) :
    ∃ after', dropBlankEnd (front ++ word :: after) = front ++ word :: after' := by
  rcases dropBlankEnd_cases (front ++ word :: after) with hsame | ⟨blank, hblank, hrow⟩
  · exact ⟨after, hsame⟩
  · rcases List.eq_nil_or_concat' after with rfl | ⟨more, last, rfl⟩
    · obtain ⟨-, hlast⟩ := List.append_inj' hrow rfl
      rw [(List.cons.inj hlast).1, hblank] at hword
      cases hword
    · rw [← List.cons_append, ← List.append_assoc] at hrow ⊢
      exact ⟨more, (List.append_inj' hrow rfl).1.symm⟩

/-- A chunk that is not blank stays among those that are left. -/
theorem exists_dropBlankStart {word : Text} (hword : isAllBlank word = false)
    (before back : List Text) : ∃ before', solid before'.flatten = solid before.flatten ∧
      dropBlankStart (before ++ word :: back) = before' ++ word :: back := by
  cases before with
  | nil => exact ⟨[], rfl, by rw [List.nil_append, dropBlankStart, hword]; rfl⟩
  | cons first before =>
    rw [List.cons_append, dropBlankStart]
    split
    · rename_i hblank
      refine ⟨before, ?_, rfl⟩
      rw [List.flatten_cons, solid_append, solid_of_isAllBlank hblank, List.nil_append]
    · exact ⟨first :: before, rfl, rfl⟩

/-! ## Passes -/

/-- One pass turns chunks into the kept chunks of a row and the chunks for the next pass. -/
inductive Passes (width : Nat) (ws : List Text) : List Text → List Text → Prop where
  | intro {row rest next : List Text} (taken : TakesRow width ws row rest)
      (left : next = rest ∨ next = dropBlankStart rest) : Passes width ws (dropBlankEnd row) next

/-- Pass after pass chunks are packed into rows; a pass that keeps nothing makes no row. -/
inductive Packs (width : Nat) : List Text → List Text → Prop where
  | done : Packs width [] []
  | skip {ws next packed : List Text} (pass : Passes width ws [] next)
      (rest : Packs width next packed) : Packs width ws packed
  | row {ws kept next packed : List Text} (pass : Passes width ws kept next) (some : kept ≠ [])
      (rest : Packs width next packed) : Packs width ws (kept.flatten :: packed)

/-- The rows of chunks come from passes. -/
theorem packs_rows {width : Nat} (hw : 0 < width) (first : Bool) (ws : List Text) :
    Packs width ws (rows width hw first ws) := by
  fun_induction rows width hw first ws with
  | case1 first => exact .done
  | case2 first w ws rest hnone ih =>
    have hnext : (if first = true then rest else dropBlankStart rest) = rest ∨
        (if first = true then rest else dropBlankStart rest) = dropBlankStart rest := by
      split
      · exact .inl rfl
      · exact .inr rfl
    exact .skip (hnone ▸ .intro (takesRow_takeRow width (w :: ws)) hnext) ih
  | case3 first w ws rest hsome ih =>
    exact .row (.intro (takesRow_takeRow width (w :: ws)) (.inr rfl)) hsome ih

namespace Passes

variable {width : Nat} {ws kept next front back : List Text} {word : Text}

theorem fits (h : Passes width ws kept next) : kept.flatten.length ≤ width := by
  obtain ⟨taken, -⟩ := h
  exact Nat.le_trans (length_flatten_dropBlankEnd_le _) taken.fits

/-- A pass loses nothing but blanks. -/
theorem solid_eq (h : Passes width ws kept next) :
    solid kept.flatten ++ solid next.flatten = solid ws.flatten := by
  obtain ⟨taken, rfl | rfl⟩ := h
  · rw [solid_flatten_dropBlankEnd, ← solid_append, taken.flatten_eq]
  · rw [solid_flatten_dropBlankEnd, solid_flatten_dropBlankStart, ← solid_append, taken.flatten_eq]

/-- A chunk for which a row has room and that is not blank is in the row or waits for the next
pass, with the same before it but for blanks. -/
theorem split (h : Passes width (front ++ word :: back) kept next)
    (hfits : word.length ≤ width) (hword : isAllBlank word = false) :
    (∃ after, kept = front ++ word :: after) ∨
      ∃ before, next = before ++ word :: back ∧
        solid kept.flatten ++ solid before.flatten = solid front.flatten := by
  obtain ⟨taken, hnext⟩ := h
  rcases taken.split hfits with ⟨after, rfl⟩ | ⟨before, rfl, hfront⟩
  · exact .inl (exists_dropBlankEnd hword front after)
  · obtain ⟨before', hsolid, hstart⟩ := exists_dropBlankStart hword before back
    right
    rcases hnext with rfl | rfl
    · exact ⟨before, rfl, by rw [solid_flatten_dropBlankEnd, ← solid_append, hfront]⟩
    · exact ⟨before', hstart, by rw [solid_flatten_dropBlankEnd, hsolid, ← solid_append, hfront]⟩

end Passes

/-! ## All rows -/

namespace Packs

variable {width : Nat} {ws packed front back : List Text} {word : Text}

/-- Every row fits. -/
theorem fits (h : Packs width ws packed) : ∀ line ∈ packed, line.length ≤ width := by
  induction h with
  | done => nofun
  | skip pass rest ih => exact ih
  | row pass some rest ih => exact List.forall_mem_cons.mpr ⟨pass.fits, ih⟩

/-- All rows together lose nothing but blanks. -/
theorem solid_eq (h : Packs width ws packed) : solid packed.flatten = solid ws.flatten := by
  induction h with
  | done => rfl
  | skip pass rest ih => rw [ih, ← pass.solid_eq]; rfl
  | row pass some rest ih => rw [List.flatten_cons, solid_append, ih, pass.solid_eq]

/-- A chunk for which a row has room and that is not blank is unbroken in one row. -/
theorem split (h : Packs width (front ++ word :: back) packed) (hfits : word.length ≤ width)
    (hword : isAllBlank word = false) :
    ∃ above left right below, packed = above ++ (left ++ word ++ right) :: below ∧
      solid (above.flatten ++ left) = solid front.flatten := by
  -- pass after pass the chunk waits whole, until it is in the row of one
  generalize hws : front ++ word :: back = ws at h
  induction h generalizing front with
  | done => exact absurd hws (List.append_ne_nil_of_right_ne_nil _ (List.cons_ne_nil _ _))
  | skip pass rest ih =>
    subst hws
    rcases pass.split hfits hword with ⟨after, hnil⟩ | ⟨before, rfl, hbefore⟩
    · exact absurd hnil.symm (List.append_ne_nil_of_right_ne_nil _ (List.cons_ne_nil _ _))
    · obtain ⟨above, left, right, below, hpacked, hsolid⟩ := ih rfl
      exact ⟨above, left, right, below, hpacked, hsolid.trans hbefore⟩
  | @row ws kept next packed pass some rest ih =>
    subst hws
    rcases pass.split hfits hword with ⟨after, rfl⟩ | ⟨before, rfl, hbefore⟩
    · exact ⟨[], front.flatten, after.flatten, packed, by simp, rfl⟩
    · obtain ⟨above, left, right, below, rfl, hsolid⟩ := ih rfl
      refine ⟨kept.flatten :: above, left, right, below, rfl, ?_⟩
      rw [List.flatten_cons, List.append_assoc, solid_append, hsolid, hbefore]

end Packs

/-! ## Nothing but a blank -/

/-- There is no chunk, or only a blank one. -/
structure AtMostBlank (ws : List Text) : Prop where
  length_le : ws.length ≤ 1
  blank : ∀ w ∈ ws, isAllBlank w = true

namespace AtMostBlank

variable {width : Nat} {ws row rest kept next : List Text}

theorem dropBlankEnd_eq (h : AtMostBlank row) : dropBlankEnd row = [] := by
  cases hlast : row.getLast? with
  | none => rw [dropBlankEnd, hlast, List.getLast?_eq_none_iff.mp hlast]
  | some last =>
    have hblank := h.blank last (List.mem_of_getLast? hlast)
    have hlength := h.length_le
    rw [dropBlankEnd, hlast]
    simp only [if_pos hblank]
    exact List.eq_nil_of_length_eq_zero (by rw [List.length_dropLast]; omega)

theorem dropBlankStart_eq (h : AtMostBlank rest) : dropBlankStart rest = [] := by
  cases rest with
  | nil => rfl
  | cons w more =>
    have hlength := h.length_le
    rw [List.length_cons] at hlength
    rw [dropBlankStart, if_pos (h.blank w List.mem_cons_self)]
    exact List.eq_nil_of_length_eq_zero (by omega)

/-- What is taken of a blank chunk is blank, and so is what is left of it. -/
theorem takesRow (h : AtMostBlank ws) (htakes : TakesRow width ws row rest) :
    AtMostBlank row ∧ AtMostBlank rest := by
  obtain ⟨hlength, hblank⟩ := h
  cases htakes with
  | whole fits =>
    rw [List.length_append] at hlength
    exact ⟨⟨by omega, fun w hw => hblank w (List.mem_append_left _ hw)⟩,
      ⟨by omega, fun w hw => hblank w (List.mem_append_right _ hw)⟩⟩
  | @cut taken rest start more fits wide =>
    rw [List.length_append, List.length_cons] at hlength
    obtain rfl : taken = [] := List.eq_nil_of_length_eq_zero (by omega)
    obtain rfl : rest = [] := List.eq_nil_of_length_eq_zero (by omega)
    have hpair : isAllBlank start = true ∧ isAllBlank more = true := by
      have hwhole := hblank (start ++ more) (by simp)
      rwa [isAllBlank, List.all_append, Bool.and_eq_true] at hwhole
    exact ⟨⟨by simp, by simpa using hpair.1⟩, ⟨by simp, by simpa using hpair.2⟩⟩

theorem passes (h : AtMostBlank ws) (hpass : Passes width ws kept next) :
    kept = [] ∧ AtMostBlank next := by
  obtain ⟨taken, hnext⟩ := hpass
  obtain ⟨hrow, hrest⟩ := h.takesRow taken
  refine ⟨hrow.dropBlankEnd_eq, ?_⟩
  rcases hnext with rfl | rfl
  · exact hrest
  · rw [hrest.dropBlankStart_eq]
    exact ⟨Nat.zero_le _, nofun⟩

end AtMostBlank

/-- Nothing but a blank makes no row. -/
theorem Packs.eq_nil {width : Nat} {ws packed : List Text} (h : Packs width ws packed)
    (hws : AtMostBlank ws) : packed = [] := by
  induction h with
  | done => rfl
  | skip pass rest ih => exact ih (hws.passes pass).2
  | row pass some rest ih => exact absurd (hws.passes pass).1 some

end Gamebook.Text
