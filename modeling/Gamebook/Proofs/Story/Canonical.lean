import Gamebook.Proofs.Story.Grammar.Exact
import Gamebook.Proofs.Text.Lines
set_option autoImplicit false

/-!
# The stories that can be written

Not every list of rooms is the reading of some lines: a title cannot start with a
blank, a text cannot hold an arrow.  This module says which stories can be written,
writes them in one canonical way, and proves that the reader takes the canonical lines
back to the story.  What is read from any lines is such a story.
-/

namespace Gamebook

open Text

/-! ## Writable stories -/

/-- The text is trimmed and holds no line feed. -/
structure Text.IsClean (s : Text) : Prop where
  trimmed : trim s = s
  unbroken : '\n' ∉ s

instance (s : Text) : Decidable s.IsClean :=
  decidable_of_iff (trim s = s ∧ '\n' ∉ s) ⟨fun h => ⟨h.1, h.2⟩, fun h => ⟨h.1, h.2⟩⟩

/-- The parts of the choice can be told apart in a line.  A question mark in the target
is no trouble if a weight follows it, as the last one counts. -/
structure Choice.Writable (c : Choice) : Prop where
  text : c.text.IsClean
  text_arrow : ¬ " -> ".toList <:+: c.text
  target : c.target.IsClean
  target_ne_nil : c.target ≠ []
  unweighted : c.weightText? = none → '?' ∉ c.target
  weighted : ∀ w, c.weightText? = some w → w.IsClean ∧ '?' ∉ w

/-- The parts of the room can be told apart in lines. -/
structure Room.Writable (r : Room) : Prop where
  id : r.id.IsClean
  id_ne_nil : r.id ≠ []
  id_colon : ':' ∉ r.id
  title : r.title.IsClean
  description : ∀ part ∈ paragraphs r.description, trim part = part ∧ part ≠ ";;;".toList
  leads : (∃ outcome, r.transitions = [.ending outcome]) ∨
    (r.transitions ≠ [] ∧ ∀ t ∈ r.transitions, t.isEnding = false)
  choices : ∀ c, .choice c ∈ r.transitions → c.Writable

/-- The rooms of the story can be told apart in lines. -/
structure Story.Writable (s : Story) : Prop where
  rooms : ∀ r ∈ s.rooms, r.Writable
  ids_nodup : s.ids.Nodup

/-! ## Canonical lines -/

/-- What follows the arrow of a choice. -/
def Choice.destination (c : Choice) : Text :=
  match c.weightText? with
  | none => c.target
  | some w => c.target ++ '?' :: w

/-- The line of a transition.  The tab keeps a text that ends in the start of an arrow
apart from the arrow. -/
def Transition.line : Transition → Text
  | .ending .success => "=)".toList
  | .ending .failure => "=(".toList
  | .choice c => ':' :: (c.text ++ '\t' :: (" -> ".toList ++ c.destination))

/-- The lines of a room. -/
def Room.block (r : Room) : Story.Grammar.Block where
  header := 'R' :: (r.id ++ ':' :: r.title)
  description := paragraphs r.description
  body := r.transitions.map Transition.line

/-- The canonical lines of a story. -/
def Story.toLines (s : Story) : List Text := s.rooms.flatMap fun r => r.block.lines

/-! ## What is read can be written -/

namespace Text

theorem isClean_trim {s : Text} (h : '\n' ∉ s) : (trim s).IsClean :=
  ⟨trim_trim s, fun hmem => h (mem_of_mem_trim hmem)⟩

end Text

namespace Story.Grammar

theorem IsTarget.clean {s target : Text} {weight? : Option Text} (h : IsTarget s target weight?)
    (hs : '\n' ∉ s) : target.IsClean ∧ target ≠ [] ∧ (weight? = none → '?' ∉ target) ∧
      ∀ w, weight? = some w → w.IsClean ∧ '?' ∉ w := by
  rcases h with ⟨before, tail, rfl, hmark, hne, rfl, rfl⟩ | ⟨hmark, hne, rfl, rfl⟩
  · obtain ⟨hbefore, htail⟩ : '\n' ∉ before ∧ '\n' ∉ tail := by simpa [not_or] using hs
    refine ⟨isClean_trim hbefore, trim_ne_nil_iff.mpr hne, by simp, ?_⟩
    intro w hw
    obtain rfl := Option.some.inj hw
    exact ⟨isClean_trim htail, fun hmem => hmark (mem_of_mem_trim hmem)⟩
  · exact ⟨isClean_trim hs, trim_ne_nil_iff.mpr hne, fun _ hmem => hmark (mem_of_mem_trim hmem),
      by simp⟩

theorem IsChoice.writable {line : Text} {c : Choice} (h : IsChoice line c) (hline : '\n' ∉ line) :
    c.Writable := by
  obtain ⟨s, text, tail, rfl, hcut, htext, htarget⟩ := h
  have hs : '\n' ∉ text ++ " -> ".toList ++ tail := by
    rw [← hcut.eq]
    exact fun hmem => hline (List.mem_cons_of_mem _ hmem)
  obtain ⟨⟨hbefore, -⟩, htail⟩ : ('\n' ∉ text ∧ _) ∧ '\n' ∉ tail := by
    simpa only [List.mem_append, not_or] using hs
  obtain ⟨hclean, hne, hunweighted, hweighted⟩ := htarget.clean htail
  have harrow : ¬ " -> ".toList <:+: trim text := fun harrow =>
    hcut.not_isInfix (by decide) (harrow.trans (trim_isInfix text))
  refine ⟨?_, ?_, hclean, hne, hunweighted, hweighted⟩
  · rw [htext]
    exact isClean_trim hbefore
  · rwa [htext]

theorem IsHeader.clean {line id title : Text} (h : IsHeader line id title) (hline : '\n' ∉ line) :
    id.IsClean ∧ id ≠ [] ∧ ':' ∉ id ∧ title.IsClean := by
  obtain ⟨before, tail, rfl, hcolon, hne, rfl, rfl⟩ := h
  obtain ⟨hbefore, htail⟩ : '\n' ∉ before ∧ '\n' ∉ tail := by simpa [not_or] using hline
  exact ⟨isClean_trim hbefore, trim_ne_nil_iff.mpr hne, fun hmem => hcolon (mem_of_mem_trim hmem),
    isClean_trim htail⟩

namespace Block

theorem mem_lines_of_mem_spoken {b : Block} {line : Text} (h : line ∈ b.spoken) :
    line ∈ b.lines := by
  have hbody : line ∈ b.body := (List.mem_filter.mp h).1
  simp [lines, hbody]

/-- A block of clean lines denotes a room that can be written. -/
theorem Denotes.writable {b : Block} {r : Room} (h : b.Denotes r)
    (hclean : ∀ line ∈ b.lines, line.IsClean) : r.Writable := by
  have hspoken : ∀ line ∈ b.spoken, '\n' ∉ line := fun line hline =>
    (hclean line (mem_lines_of_mem_spoken hline)).unbroken
  have hdescription : ∀ line ∈ b.description, line.IsClean := fun line hline =>
    hclean line (by simp [lines, hline])
  obtain ⟨hid, hid_ne, hcolon, htitle⟩ :=
    h.header.clean (hclean b.header (by simp [lines])).unbroken
  refine ⟨hid, hid_ne, hcolon, htitle, ?_, ?_, ?_⟩
  · intro part hpart
    rw [h.description] at hpart
    rcases mem_paragraphs_joinLines (fun line hline => (hdescription line hline).unbroken) hpart with
      rfl | hmem
    · decide
    · refine ⟨(hdescription part hmem).trimmed, ?_⟩
      rintro rfl
      exact h.unended hmem
  · rcases h.leads with ⟨line, outcome, -, -, hts⟩ | ⟨choices, -, hts⟩
    · exact .inl ⟨outcome, hts⟩
    · refine .inr ⟨h.transitions_ne_nil, ?_⟩
      rw [hts]
      simp [Transition.isEnding]
  · intro c hc
    rcases h.leads with ⟨line, outcome, -, -, hts⟩ | ⟨choices, hchoices, hts⟩
    · rw [hts] at hc
      cases List.mem_singleton.mp hc
    · rw [hts] at hc
      obtain ⟨c', hc', heq⟩ := List.mem_map.mp hc
      obtain rfl := Transition.choice.inj heq
      obtain ⟨line, hline, hread⟩ := exists_left_of_forall₂ hchoices hc'
      exact hread.writable (hspoken line hline)

end Block

end Story.Grammar

/-! ## Canonical lines are read back -/

namespace Choice

theorem Writable.newline_not_mem_destination {c : Choice} (h : c.Writable) :
    '\n' ∉ c.destination := by
  unfold destination
  split
  · exact h.target.unbroken
  · rename_i w hw
    simp [h.target.unbroken, (h.weighted w hw).1.unbroken]

theorem Writable.isTarget {c : Choice} (h : c.Writable) :
    Story.Grammar.IsTarget c.destination c.target c.weightText? := by
  have hblank : isAllBlank c.target = false := by
    rw [← trim_ne_nil_iff, h.target.trimmed]
    exact h.target_ne_nil
  unfold destination
  cases hweight : c.weightText? with
  | none =>
    exact .inr ⟨h.unweighted hweight, hblank, h.target.trimmed.symm, rfl⟩
  | some w =>
    obtain ⟨hclean, hmark⟩ := h.weighted w hweight
    exact .inl ⟨c.target, w, rfl, hmark, hblank, h.target.trimmed.symm, by rw [hclean.trimmed]⟩

theorem Writable.isChoice {c : Choice} (h : c.Writable) :
    Story.Grammar.IsChoice (Transition.choice c).line c := by
  have hcut : IsFirstCut " -> ".toList (c.text ++ '\t' :: (" -> ".toList ++ c.destination))
      (c.text ++ ['\t']) c.destination := isFirstCut_of_guard (by decide) h.text_arrow
  have htext : trim (c.text ++ ['\t']) = c.text :=
    trim_append_of_blank (trim_eq_self_iff.mp h.text.trimmed) (by decide)
  exact ⟨_, _, _, rfl, hcut, htext.symm, h.isTarget⟩

/-- Nothing is trimmed off the end of a choice. -/
theorem Writable.isTrimmed_line {c : Choice} (h : c.Writable) :
    IsTrimmed (Transition.choice c).line := by
  have hfront : IsTrimmed [':'] := isTrimmed_nil.cons (by decide)
  have htarget : IsTrimmed c.target := trim_eq_self_iff.mp h.target.trimmed
  cases hweight : c.weightText? with
  | none =>
    simp only [Transition.line, destination, hweight]
    have hline := hfront.enclose htarget (by simp) h.target_ne_nil
      (c.text ++ '\t' :: " -> ".toList)
    simpa using hline
  | some w =>
    simp only [Transition.line, destination, hweight]
    have hw : IsTrimmed ('?' :: w) :=
      (trim_eq_self_iff.mp (h.weighted w hweight).1.trimmed).cons (by decide)
    have hline := hfront.enclose hw (by simp) (by simp)
      (c.text ++ '\t' :: (" -> ".toList ++ c.target))
    simpa using hline

theorem Writable.isClean_line {c : Choice} (h : c.Writable) :
    (Transition.choice c).line.IsClean := by
  refine ⟨trim_eq_self h.isTrimmed_line, ?_⟩
  simp [Transition.line, h.text.unbroken, h.newline_not_mem_destination]

end Choice

namespace Transition

/-- The line of a transition says something, and it is no header. -/
theorem line_spoken (t : Transition) :
    Story.Grammar.isSilent t.line = false ∧ t.line.head? ≠ some 'R' := by
  cases t with
  | ending outcome => cases outcome <;> decide
  | choice c => exact ⟨rfl, by simp [line]⟩

theorem isEnding_line (outcome : Outcome) :
    Story.Grammar.IsEnding (ending outcome).line outcome := by
  cases outcome with
  | success => exact .success
  | failure => exact .failure

/-- Transitions none of which is an ending are choices. -/
theorem exists_eq_map_choice {ts : List Transition} (h : ∀ t ∈ ts, t.isEnding = false) :
    ∃ choices : List Choice, ts = choices.map choice := by
  induction ts with
  | nil => exact ⟨[], rfl⟩
  | cons t rest ih =>
    obtain ⟨choices, hrest⟩ := ih fun t' ht' => h t' (List.mem_cons_of_mem _ ht')
    cases t with
    | ending outcome => cases h (ending outcome) List.mem_cons_self
    | choice c => exact ⟨c :: choices, by rw [hrest, List.map_cons]⟩

theorem isClean_line_ending (outcome : Outcome) : (ending outcome).line.IsClean := by
  cases outcome <;> decide

end Transition

namespace Room

theorem spoken_block (r : Room) : r.block.spoken = r.transitions.map Transition.line := by
  rw [Story.Grammar.Block.spoken, block, List.filter_eq_self]
  intro line hline
  obtain ⟨t, -, rfl⟩ := List.mem_map.mp hline
  rw [t.line_spoken.1]
  rfl

theorem Writable.isHeader {r : Room} (h : r.Writable) :
    Story.Grammar.IsHeader r.block.header r.id r.title := by
  refine ⟨r.id, r.title, rfl, h.id_colon, ?_, h.id.trimmed.symm, h.title.trimmed.symm⟩
  rw [← trim_ne_nil_iff, h.id.trimmed]
  exact h.id_ne_nil

theorem Writable.leads_block {r : Room} (h : r.Writable) : r.block.Leads r.transitions := by
  rw [Story.Grammar.Block.Leads, spoken_block]
  rcases h.leads with ⟨outcome, hts⟩ | ⟨-, hchoices⟩
  · refine .inl ⟨_, outcome, ?_, Transition.isEnding_line outcome, hts⟩
    rw [hts]
    rfl
  · obtain ⟨choices, hts⟩ := Transition.exists_eq_map_choice hchoices
    refine .inr ⟨choices, ?_, hts⟩
    rw [hts, List.map_map, List.forall₂_map_left_iff, List.forall₂_same]
    intro c hc
    exact (h.choices c (hts ▸ List.mem_map_of_mem hc)).isChoice

/-- The block of a room that can be written denotes the room. -/
theorem Writable.denotes_block {r : Room} (h : r.Writable) : r.block.Denotes r where
  header := h.isHeader
  unended := fun hmem => (h.description _ hmem).2 rfl
  description := (joinLines_paragraphs r.description).symm
  unmarked := by
    rw [spoken_block]
    intro line hline
    obtain ⟨t, -, rfl⟩ := List.mem_map.mp hline
    exact t.line_spoken.2
  leads := h.leads_block
  spoken_ne_nil := by
    rw [spoken_block, ne_eq, List.map_eq_nil_iff]
    rcases h.leads with ⟨outcome, hts⟩ | ⟨hne, -⟩
    · rw [hts]
      exact List.cons_ne_nil _ _
    · exact hne

theorem Writable.isClean_header {r : Room} (h : r.Writable) : r.block.header.IsClean := by
  have hfront : IsTrimmed ['R'] := isTrimmed_nil.cons (by decide)
  have hback : IsTrimmed (':' :: r.title) :=
    (trim_eq_self_iff.mp h.title.trimmed).cons (by decide)
  refine ⟨trim_eq_self ?_, ?_⟩
  · have hline := hfront.enclose hback (by simp) (by simp) r.id
    simpa [block] using hline
  · simp [block, h.id.unbroken, h.title.unbroken]

/-- The reader trims nothing off the lines of a room that can be written. -/
theorem Writable.isClean_lines {r : Room} (h : r.Writable) :
    ∀ line ∈ r.block.lines, line.IsClean := by
  intro line hline
  rw [Story.Grammar.Block.lines, List.mem_cons, List.mem_append, List.mem_cons] at hline
  rcases hline with rfl | hdescription | rfl | hbody
  · exact h.isClean_header
  · exact ⟨(h.description line hdescription).1, newline_not_mem_of_mem_paragraphs hdescription⟩
  · decide
  · obtain ⟨t, ht, rfl⟩ := List.mem_map.mp hbody
    cases t with
    | ending outcome => exact Transition.isClean_line_ending outcome
    | choice c => exact (h.choices c ht).isClean_line

end Room

namespace Story

variable {story : Story}

theorem Writable.isClean_toLines (h : story.Writable) : ∀ line ∈ story.toLines, line.IsClean := by
  intro line hline
  obtain ⟨r, hr, hline⟩ := List.mem_flatMap.mp hline
  exact (h.rooms r hr).isClean_lines line hline

/-- The canonical lines of a story, cut at its rooms. -/
theorem Writable.denotes_cut (h : story.Writable) :
    (Grammar.Cut.mk [] (story.rooms.map Room.block)).Denotes story.rooms where
  silent := by simp
  blocks_ne_nil := by
    rw [ne_eq, List.map_eq_nil_iff]
    exact story.rooms_ne_nil
  blocks := by
    rw [List.forall₂_map_left_iff, List.forall₂_same]
    exact fun r hr => (h.rooms r hr).denotes_block
  distinct := h.ids_nodup

/-- A story that can be written is read back from its canonical lines. -/
theorem Writable.read_toLines (h : story.Writable) :
    Story.read .standard story.toLines = .ok story := by
  have htrim : story.toLines.map trim = story.toLines := by
    calc story.toLines.map trim
        = story.toLines.map id :=
          List.map_congr_left fun line hline => (h.isClean_toLines line hline).trimmed
      _ = story.toLines := List.map_id _
  have hlines : (Grammar.Cut.mk [] (story.rooms.map Room.block)).lines = story.toLines.map trim := by
    rw [htrim, Grammar.Cut.lines, toLines, List.nil_append, List.flatMap_map]
  obtain ⟨story', hread, hrooms⟩ := Grammar.read_of_cut hlines h.denotes_cut
  cases story
  cases story'
  cases hrooms
  exact hread

/-- A story that is read from lines without line feeds can be written. -/
theorem writable_of_read {raw : List Text} (h : Story.read .standard raw = .ok story)
    (hraw : ∀ line ∈ raw, '\n' ∉ line) : story.Writable := by
  obtain ⟨c, hlines, hdenotes⟩ := Grammar.exists_cut_of_read h
  have hclean : ∀ line ∈ c.lines, line.IsClean := by
    intro line hline
    rw [hlines] at hline
    obtain ⟨rawLine, hmem, rfl⟩ := List.mem_map.mp hline
    exact isClean_trim (hraw rawLine hmem)
  refine ⟨fun r hr => ?_, hdenotes.distinct⟩
  obtain ⟨b, hb, hdenotes⟩ := Grammar.exists_left_of_forall₂ hdenotes.blocks hr
  refine hdenotes.writable fun line hline => hclean line ?_
  exact List.mem_append_right _ (List.mem_flatMap.mpr ⟨b, hb, hline⟩)

/-- A story is the reading of some lines without line feeds exactly if it can be
written, and then it is also the reading of its canonical lines, which have none. -/
theorem read_iff_writable (story : Story) :
    ((∃ raw : List Text, (∀ line ∈ raw, '\n' ∉ line) ∧ Story.read .standard raw = .ok story) ↔
      story.Writable) ∧
    (story.Writable → (∀ line ∈ story.toLines, '\n' ∉ line) ∧
      Story.read .standard story.toLines = .ok story) := by
  refine ⟨⟨?_, ?_⟩, ?_⟩
  · intro h
    obtain ⟨raw, hraw, hread⟩ := h
    exact writable_of_read hread hraw
  · intro h
    exact ⟨story.toLines, fun line hline => (h.isClean_toLines line hline).unbroken,
      h.read_toLines⟩
  · intro h
    exact ⟨fun line hline => (h.isClean_toLines line hline).unbroken, h.read_toLines⟩

/-- A story with a text that ends in the start of an arrow, a target that starts with the
rest of one, and a question mark in a name. -/
def ferry : Story where
  rooms :=
    [⟨"quay".toList, [], "fog\n\nbell".toList,
      [.choice ⟨"wait ->".toList, "isle?".toList, some "1".toList⟩,
        .choice ⟨[], "-> isle".toList, none⟩]⟩,
      ⟨"isle?".toList, "Isle".toList, [], [.ending .failure]⟩]
  rooms_ne_nil := by simp

theorem read_iff_writable_ferry :
    ferry.Writable ∧ Story.read .standard ferry.toLines = .ok ferry := by
  let raw := ["# boats".toList, "R quay :".toList, " fog".toList, [], "bell ".toList,
    ";;;".toList, ":wait ->\t -> isle? ? 1".toList, [], ": -> -> isle".toList,
    "Risle?: Isle".toList, ";;;".toList, "=(".toList]
  have hread : Story.read .standard raw = .ok ferry := rfl
  obtain ⟨hreads, hwrites⟩ := read_iff_writable ferry
  have hwritable : ferry.Writable := hreads.mp ⟨raw, by decide, hread⟩
  exact ⟨hwritable, (hwrites hwritable).2⟩

end Story

end Gamebook
