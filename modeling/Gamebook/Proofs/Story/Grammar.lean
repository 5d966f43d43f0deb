import Gamebook.Proofs.Text.Cut
import Gamebook.Story
import Mathlib.Data.List.Forall2
set_option autoImplicit false

/-!
# The grammar of stories

A story file, its lines trimmed and its mark left out, is lines that say nothing
and then blocks, one for each room.  This module says so without a reader: which
lines are headers, choices and endings, what they read as, and how lines are cut
into blocks.  It proves that there is at most one such cut and at most one list of
rooms that it reads as.
-/

namespace Gamebook.Story.Grammar

open Text

/-! ## Lines -/

/-- An empty line or a comment, which says nothing outside of descriptions. -/
def isSilent : Text → Bool
  | [] => true
  | c :: _ => c = '#'

/-- A header: the letter R, and then an id and a title around the first colon. -/
def IsHeader (line id title : Text) : Prop :=
  ∃ before tail, line = 'R' :: (before ++ ':' :: tail) ∧ ':' ∉ before ∧
    isAllBlank before = false ∧ id = trim before ∧ title = trim tail

/-- A target, with a weight behind the last question mark if there is one. -/
def IsTarget (s target : Text) (weight? : Option Text) : Prop :=
  (∃ before tail, s = before ++ '?' :: tail ∧ '?' ∉ tail ∧ isAllBlank before = false ∧
    target = trim before ∧ weight? = some (trim tail)) ∨
  ('?' ∉ s ∧ isAllBlank s = false ∧ target = trim s ∧ weight? = none)

/-- A choice: a colon, and then a text and a target around the first arrow. -/
def IsChoice (line : Text) (c : Choice) : Prop :=
  ∃ s text tail, line = ':' :: s ∧ IsFirstCut " -> ".toList s text tail ∧
    c.text = trim text ∧ IsTarget tail c.target c.weightText?

/-- A line that ends the story. -/
inductive IsEnding : Text → Outcome → Prop where
  | success : IsEnding "=)".toList .success
  | failure : IsEnding "=(".toList .failure

/-- The line that ends a description. -/
def descriptionEnd : Text := ";;;".toList

/-! ## Blocks -/

/-- The lines of one room: its header, its description, and what follows the end of
the description. -/
structure Block where
  header : Text
  description : List Text
  body : List Text
  deriving DecidableEq, Repr, Inhabited

namespace Block

/-- All lines of a block in order. -/
def lines (b : Block) : List Text := b.header :: (b.description ++ descriptionEnd :: b.body)

/-- The lines of the body that say something. -/
def spoken (b : Block) : List Text := b.body.filter fun line => !isSilent line

/-- The transitions that the body reads as: one ending, or choices only. -/
def Leads (b : Block) (ts : List Transition) : Prop :=
  (∃ line outcome, b.spoken = [line] ∧ IsEnding line outcome ∧ ts = [.ending outcome]) ∨
  ∃ choices, List.Forall₂ IsChoice b.spoken choices ∧ ts = choices.map .choice

/-- The block reads as a room that may still lack transitions. -/
structure Drafts (b : Block) (r : Room) : Prop where
  header : IsHeader b.header r.id r.title
  unended : descriptionEnd ∉ b.description
  description : r.description = joinLines b.description
  unmarked : ∀ line ∈ b.spoken, line.head? ≠ some 'R'
  leads : b.Leads r.transitions

/-- The block reads as a room. -/
structure Denotes (b : Block) (r : Room) : Prop extends b.Drafts r where
  spoken_ne_nil : b.spoken ≠ []

end Block

/-! ## Cuts of a story -/

/-- A cut of lines into lines before the first header and blocks. -/
structure Cut where
  preamble : List Text
  blocks : List Block
  deriving DecidableEq, Repr, Inhabited

namespace Cut

/-- The lines that are cut. -/
def lines (c : Cut) : List Text := c.preamble ++ c.blocks.flatMap Block.lines

/-- The cut reads as rooms. -/
structure Denotes (c : Cut) (rooms : List Room) : Prop where
  silent : ∀ line ∈ c.preamble, isSilent line = true
  blocks_ne_nil : c.blocks ≠ []
  blocks : List.Forall₂ Block.Denotes c.blocks rooms
  distinct : (rooms.map (·.id)).Nodup

end Cut

/-! ## Lines read in one way -/

theorem IsHeader.head?_eq {line id title : Text} (h : IsHeader line id title) :
    line.head? = some 'R' := by
  obtain ⟨before, tail, rfl, -⟩ := h
  rfl

theorem isSilent_eq_false_of_head? {line : Text} (h : line.head? = some 'R') :
    isSilent line = false := by
  cases line with
  | nil => simp at h
  | cons c rest =>
    obtain rfl : c = 'R' := by simpa using h
    rfl

theorem IsHeader.unique {line id id' title title' : Text} (h : IsHeader line id title)
    (h' : IsHeader line id' title') : id = id' ∧ title = title' := by
  obtain ⟨before, tail, rfl, hnot, -, rfl, rfl⟩ := h
  obtain ⟨before', tail', heq, hnot', -, rfl, rfl⟩ := h'
  have hfirst := isFirstCut_singleton_iff.mpr ⟨(List.cons.inj heq).2, hnot'⟩
  obtain ⟨rfl, rfl⟩ := hfirst.unique (isFirstCut_singleton_iff.mpr ⟨rfl, hnot⟩)
  exact ⟨rfl, rfl⟩

theorem IsTarget.unique {s target target' : Text} {weight? weight?' : Option Text}
    (h : IsTarget s target weight?) (h' : IsTarget s target' weight?') :
    target = target' ∧ weight? = weight?' := by
  rcases h with ⟨before, tail, heq, hnot, -, rfl, rfl⟩ | ⟨hnot, -, rfl, rfl⟩
  · rcases h' with ⟨before', tail', heq', hnot', -, rfl, rfl⟩ | ⟨hnot', -⟩
    · have hlast := isLastCut_singleton_iff.mpr ⟨heq, hnot⟩
      obtain ⟨rfl, rfl⟩ := hlast.unique (isLastCut_singleton_iff.mpr ⟨heq', hnot'⟩)
      exact ⟨rfl, rfl⟩
    · exact absurd (by simp [heq]) hnot'
  · rcases h' with ⟨before', tail', heq', -⟩ | ⟨-, -, rfl, rfl⟩
    · exact absurd (by simp [heq']) hnot
    · exact ⟨rfl, rfl⟩

theorem IsChoice.unique {line : Text} {c c' : Choice} (h : IsChoice line c)
    (h' : IsChoice line c') : c = c' := by
  obtain ⟨s, text, tail, rfl, hcut, htext, htarget⟩ := h
  obtain ⟨s', text', tail', heq, hcut', htext', htarget'⟩ := h'
  obtain rfl : s = s' := (List.cons.inj heq).2
  obtain ⟨rfl, rfl⟩ := hcut.unique hcut'
  obtain ⟨ht, hw⟩ := htarget.unique htarget'
  cases c
  cases c'
  simp_all

theorem IsEnding.unique {line : Text} {outcome outcome' : Outcome} (h : IsEnding line outcome)
    (h' : IsEnding line outcome') : outcome = outcome' := by
  cases h with
  | success =>
    generalize hline : "=)".toList = line at h'
    cases h' with
    | success => rfl
    | failure => exact absurd hline (by decide)
  | failure =>
    generalize hline : "=(".toList = line at h'
    cases h' with
    | success => exact absurd hline (by decide)
    | failure => rfl

/-- No line is both an ending and a choice. -/
theorem IsEnding.not_isChoice {line : Text} {outcome : Outcome} (h : IsEnding line outcome)
    (c : Choice) : ¬ IsChoice line c := by
  intro h
  obtain ⟨s, text, tail, heq, -⟩ := h
  cases h <;> simp at heq

/-! ## Blocks read in one way -/

theorem Block.Leads.unique {b : Block} {ts ts' : List Transition} (h : b.Leads ts)
    (h' : b.Leads ts') : ts = ts' := by
  rcases h with ⟨line, outcome, hline, hending, rfl⟩ | ⟨choices, hchoices, rfl⟩
  · rcases h' with ⟨line', outcome', hline', hending', rfl⟩ | ⟨choices, hchoices, rfl⟩
    · obtain rfl : line = line' := by simpa [hline] using hline'
      rw [hending.unique hending']
    · rw [hline, List.forall₂_cons_left_iff] at hchoices
      obtain ⟨c, -, hc, -⟩ := hchoices
      exact absurd hc (hending.not_isChoice c)
  · rcases h' with ⟨line, outcome, hline, hending, rfl⟩ | ⟨choices', hchoices', rfl⟩
    · rw [hline, List.forall₂_cons_left_iff] at hchoices
      obtain ⟨c, -, hc, -⟩ := hchoices
      exact absurd hc (hending.not_isChoice c)
    · have hunique : Relator.RightUnique IsChoice := fun _ _ _ hc hc' => hc.unique hc'
      rw [List.right_unique_forall₂' hunique hchoices hchoices']

theorem Block.Drafts.unique {b : Block} {r r' : Room} (h : b.Drafts r) (h' : b.Drafts r') :
    r = r' := by
  obtain ⟨hid, htitle⟩ := h.header.unique h'.header
  have hdescription := h.description.trans h'.description.symm
  have htransitions := h.leads.unique h'.leads
  cases r
  cases r'
  simp_all

/-- A list falls into members without a property and a rest that starts with one that
has it in at most one way. -/
theorem span_unique {α : Type} {p : α → Prop} {front front' rest rest' : List α}
    (heq : front ++ rest = front' ++ rest') (hfront : ∀ x ∈ front, ¬ p x)
    (hfront' : ∀ x ∈ front', ¬ p x) (hrest : ∀ x ∈ rest.head?, p x)
    (hrest' : ∀ x ∈ rest'.head?, p x) : front = front' ∧ rest = rest' := by
  induction front generalizing front' with
  | nil =>
    cases front' with
    | nil => exact ⟨rfl, heq⟩
    | cons x tail => exact absurd (hrest x (by simp_all)) (hfront' x (by simp))
  | cons x tail ih =>
    cases front' with
    | nil =>
      have hx : rest'.head? = some x := by rw [← List.nil_append rest', ← heq]; rfl
      exact absurd (hrest' x hx) (hfront x (by simp))
    | cons y tail' =>
      obtain ⟨rfl, htail⟩ := List.cons.inj heq
      obtain ⟨rfl, rfl⟩ := ih htail (fun z hz => hfront z (List.mem_cons_of_mem _ hz))
        (fun z hz => hfront' z (List.mem_cons_of_mem _ hz))
      exact ⟨rfl, rfl⟩

/-- What is related to a member on the right is a member on the left. -/
theorem exists_left_of_forall₂ {α β : Type} {R : α → β → Prop} {as : List α} {bs : List β}
    (h : List.Forall₂ R as bs) {b : β} (hb : b ∈ bs) : ∃ a ∈ as, R a b := by
  induction h with
  | nil => cases hb
  | cons head _ ih =>
    rcases List.mem_cons.mp hb with rfl | hb
    · exact ⟨_, List.mem_cons_self, head⟩
    · obtain ⟨a, ha, hab⟩ := ih hb
      exact ⟨a, List.mem_cons_of_mem _ ha, hab⟩

/-- No line of a body starts like a header. -/
theorem Block.Drafts.body_unmarked {b : Block} {r : Room} (h : b.Drafts r) :
    ∀ line ∈ b.body, ¬ line.head? = some 'R' := by
  intro line hline hhead
  refine h.unmarked line ?_ hhead
  rw [Block.spoken, List.mem_filter]
  exact ⟨hline, by rw [isSilent_eq_false_of_head? hhead]; rfl⟩

theorem head?_flatMap_lines {blocks : List Block} {rooms : List Room}
    (h : List.Forall₂ Block.Drafts blocks rooms) :
    ∀ line ∈ (blocks.flatMap Block.lines).head?, line.head? = some 'R' := by
  cases h with
  | nil => simp
  | cons hb _ =>
    intro line hline
    rw [List.flatMap_cons, Block.lines, List.cons_append, List.head?_cons, Option.mem_some] at hline
    subst hline
    exact hb.header.head?_eq

theorem blocks_unique {blocks blocks' : List Block} {rooms rooms' : List Room}
    (h : List.Forall₂ Block.Drafts blocks rooms) (h' : List.Forall₂ Block.Drafts blocks' rooms')
    (heq : blocks.flatMap Block.lines = blocks'.flatMap Block.lines) : blocks = blocks' := by
  induction h generalizing blocks' rooms' with
  | nil =>
    cases h' with
    | nil => rfl
    | cons _ _ => simp [Block.lines] at heq
  | @cons b r blocks rooms hb hrest ih =>
    cases h' with
    | nil => simp [Block.lines] at heq
    | @cons b' r' blocks' rooms' hb' hrest' =>
      simp only [List.flatMap_cons, Block.lines, List.cons_append, List.append_assoc,
        List.cons.injEq] at heq
      obtain ⟨hheader, heq⟩ := heq
      -- a description goes on to the first line that ends it
      obtain ⟨hdescription, heq⟩ := span_unique (p := fun line => line = descriptionEnd) heq
        (fun line hline hend => hb.unended (hend ▸ hline))
        (fun line hline hend => hb'.unended (hend ▸ hline)) (by simp) (by simp)
      -- and a body to the next header
      obtain ⟨hbody, hblocks⟩ := span_unique (List.cons.inj heq).2 hb.body_unmarked
        hb'.body_unmarked (head?_flatMap_lines hrest) (head?_flatMap_lines hrest')
      rw [ih hrest' hblocks]
      cases b
      cases b'
      simp_all

theorem Cut.Denotes.drafts {c : Cut} {rooms : List Room} (h : c.Denotes rooms) :
    List.Forall₂ Block.Drafts c.blocks rooms :=
  h.blocks.imp fun _ _ hb => hb.toDrafts

/-- There is at most one way to cut lines so that they read as rooms. -/
theorem Cut.Denotes.cut_unique {c c' : Cut} {rooms rooms' : List Room} (h : c.Denotes rooms)
    (h' : c'.Denotes rooms') (heq : c.lines = c'.lines) : c = c' := by
  have hsilent : ∀ {d : Cut} {rs : List Room}, d.Denotes rs →
      ∀ line ∈ d.preamble, ¬ line.head? = some 'R' := by
    intro d rs hd line hline hhead
    have hnot := isSilent_eq_false_of_head? hhead
    rw [hd.silent line hline] at hnot
    simp at hnot
  obtain ⟨hpreamble, hlines⟩ := span_unique heq (hsilent h) (hsilent h')
    (head?_flatMap_lines h.drafts) (head?_flatMap_lines h'.drafts)
  have hblocks := blocks_unique h.drafts h'.drafts hlines
  cases c
  cases c'
  simp_all

/-- A cut reads as at most one list of rooms. -/
theorem Cut.Denotes.rooms_unique {c : Cut} {rooms rooms' : List Room} (h : c.Denotes rooms)
    (h' : c.Denotes rooms') : rooms = rooms' := by
  have hunique : Relator.RightUnique Block.Drafts := fun _ _ _ hb hb' => hb.unique hb'
  exact List.right_unique_forall₂' hunique h.drafts h'.drafts

end Gamebook.Story.Grammar
