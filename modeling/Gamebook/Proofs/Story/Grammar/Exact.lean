import Gamebook.Proofs.Story.Grammar
import Gamebook.Proofs.Story.Moves
set_option autoImplicit false

/-!
# The reader accepts exactly the grammar

With the standard marks, lines are read as a story exactly if some cut of them
reads as its rooms.  One direction follows the cut and reads it part by part.  The
other one keeps, move by move, a cut of the lines that have been read so far
(`Account`).
-/

namespace Gamebook.Story.Grammar

open Text Reader

/-! ## The standard marks in single lines -/

theorem isSkipped_standard (line : Text) : isSkipped .standard line = isSilent line := by
  cases line with
  | nil => rfl
  | cons c rest =>
    by_cases hc : c = '#'
    · subst hc
      rfl
    · have hnone : after? Markers.standard.comment (c :: rest) = none :=
        after?_eq_none_iff.mpr fun tail h => hc (List.cons.inj h).1
      simp [isSkipped, isSilent, hnone, hc]

theorem isHeader_iff {line id title : Text} :
    (∃ s, line = Markers.standard.room ++ s ∧ header .standard s = .ok (id, title)) ↔
      IsHeader line id title := by
  constructor
  · intro h
    obtain ⟨s, rfl, hread⟩ := h
    obtain ⟨-, before, tail, hcut, hid, rfl, rfl⟩ := header_eq_ok_iff.mp hread
    obtain ⟨rfl, hnot⟩ := isFirstCut_singleton_iff.mp hcut
    exact ⟨before, tail, rfl, hnot, trim_ne_nil_iff.mp hid, rfl, rfl⟩
  · intro h
    obtain ⟨before, tail, rfl, hnot, hid, rfl, rfl⟩ := h
    exact ⟨_, rfl, header_eq_ok_iff.mpr ⟨by decide, before, tail,
      isFirstCut_singleton_iff.mpr ⟨rfl, hnot⟩, trim_ne_nil_iff.mpr hid, rfl, rfl⟩⟩

theorem isTarget_iff {s target : Text} {weight? : Option Text} :
    IsDestination .standard s target weight? ∧ target ≠ [] ↔ IsTarget s target weight? := by
  have hnone : ¬ Markers.standard.weight <:+: s ↔ '?' ∉ s := not_congr singleton_infix_iff
  constructor
  · intro h
    obtain ⟨⟨before, tail, hcut, rfl, rfl⟩ | ⟨hnot, rfl, rfl⟩, hne⟩ := h
    · obtain ⟨heq, htail⟩ := isLastCut_singleton_iff.mp hcut
      exact .inl ⟨before, tail, heq, htail, trim_ne_nil_iff.mp hne, rfl, rfl⟩
    · exact .inr ⟨hnone.mp hnot, trim_ne_nil_iff.mp hne, rfl, rfl⟩
  · intro h
    rcases h with ⟨before, tail, heq, htail, hne, rfl, rfl⟩ | ⟨hnot, hne, rfl, rfl⟩
    · exact ⟨.inl ⟨before, tail, isLastCut_singleton_iff.mpr ⟨heq, htail⟩, rfl, rfl⟩,
        trim_ne_nil_iff.mpr hne⟩
    · exact ⟨.inr ⟨hnone.mpr hnot, rfl, rfl⟩, trim_ne_nil_iff.mpr hne⟩

theorem isChoice_iff {line : Text} {c : Choice} :
    (∃ s, line = Markers.standard.choice ++ s ∧ choice .standard s = .ok c) ↔
      IsChoice line c := by
  constructor
  · intro h
    obtain ⟨s, rfl, hread⟩ := h
    obtain ⟨-, -, text, tail, hcut, htext, htarget⟩ := choice_eq_ok_iff.mp hread
    exact ⟨s, text, tail, rfl, hcut, htext, isTarget_iff.mp htarget⟩
  · intro h
    obtain ⟨s, text, tail, rfl, hcut, htext, htarget⟩ := h
    exact ⟨s, rfl, choice_eq_ok_iff.mpr ⟨by decide, by decide, text, tail, hcut, htext,
      isTarget_iff.mpr htarget⟩⟩

theorem isEnding_iff {line : Text} {outcome : Outcome} :
    Reader.IsEnding .standard line outcome ↔ IsEnding line outcome := by
  constructor
  · intro h
    rcases h with ⟨rfl, rfl⟩ | ⟨-, rfl, rfl⟩
    · exact .success
    · exact .failure
  · rintro (_ | _)
    · exact .inl ⟨rfl, rfl⟩
    · exact .inr ⟨by decide, rfl, rfl⟩

/-- What the reader takes as a transition after others. -/
theorem transition_standard_iff {earlier : List Transition} {line : Text} {t : Transition} :
    transition .standard earlier line = .ok t ↔
      (∀ e ∈ earlier, e.isEnding = false) ∧
        ((∃ c, IsChoice line c ∧ t = .choice c) ∨
          (earlier = [] ∧ ∃ outcome, IsEnding line outcome ∧ t = .ending outcome)) := by
  rw [transition_eq_ok_iff]
  refine and_congr_right fun _ => or_congr ?_ ?_
  · constructor
    · intro h
      obtain ⟨s, c, hline, hread, rfl⟩ := h
      exact ⟨c, isChoice_iff.mp ⟨s, hline, hread⟩, rfl⟩
    · intro h
      obtain ⟨c, hchoice, rfl⟩ := h
      obtain ⟨s, hline, hread⟩ := isChoice_iff.mpr hchoice
      exact ⟨s, c, hline, hread, rfl⟩
  · constructor
    · intro h
      obtain ⟨-, hnil, outcome, hending, rfl⟩ := h
      exact ⟨hnil, outcome, isEnding_iff.mp hending, rfl⟩
    · intro h
      obtain ⟨hnil, outcome, hending, rfl⟩ := h
      refine ⟨?_, hnil, outcome, isEnding_iff.mpr hending, rfl⟩
      cases hending <;> decide

/-- A line that reads as a transition neither looks like a header nor ends a
description, and it says something. -/
theorem transition_standard_plain {earlier : List Transition} {line : Text} {t : Transition}
    (h : transition .standard earlier line = .ok t) :
    isSilent line = false ∧ line.head? ≠ some 'R' ∧ line ≠ descriptionEnd := by
  rcases (transition_standard_iff.mp h).2 with ⟨c, ⟨s, text, tail, rfl, -⟩, -⟩ | ⟨-, _, hending, -⟩
  · exact ⟨rfl, by simp, fun heq => by simp [descriptionEnd] at heq⟩
  · cases hending <;> decide

/-- A transition line moves the reader on within the body of a room. -/
theorem Move.of_transition (finished : List Room) {room : Room} {line : Text} {t : Transition}
    (h : transition .standard room.transitions line = .ok t) :
    Move .standard (.listing finished room) line
      (.listing finished { room with transitions := room.transitions ++ [t] }) := by
  obtain ⟨hspoken, hmark, hend⟩ := transition_standard_plain h
  refine .list (by rw [isSkipped_standard, hspoken]) ?_ hend h
  intro h
  obtain ⟨s, rfl⟩ := h
  exact hmark rfl

/-! ## From a cut to the reader -/

theorem reads_silent (place : Place) {lines : List Text} (houtside : place.IsOutside)
    (h : ∀ line ∈ lines, isSilent line = true) : Reads .standard place lines place := by
  induction lines with
  | nil => exact .nil place
  | cons line rest ih =>
    refine .cons (.skip houtside ?_) (ih fun l hl => h l (List.mem_cons_of_mem _ hl))
    rw [isSkipped_standard]
    exact h line List.mem_cons_self

theorem reads_description {finished : List Room} {id title : Text} {description lines : List Text}
    (h : descriptionEnd ∉ lines) :
    Reads .standard (.describing finished id title description) lines
      (.describing finished id title (description ++ lines)) := by
  induction lines generalizing description with
  | nil =>
    rw [List.append_nil]
    exact .nil _
  | cons line rest ih =>
    rw [List.mem_cons, not_or] at h
    refine .cons (.describe (Ne.symm h.1)) ?_
    rw [List.append_cons description line rest]
    exact ih h.2

/-- The silent lines of a body do not matter. -/
theorem reads_of_spoken {finished : List Room} {room : Room} {body : List Text} {last : Place}
    (hmark : ∀ line ∈ body.filter fun line => !isSilent line, line.head? ≠ some 'R')
    (h : Reads .standard (.listing finished room) (body.filter fun line => !isSilent line) last) :
    Reads .standard (.listing finished room) body last := by
  induction body generalizing room with
  | nil => exact h
  | cons line rest ih =>
    cases hsilent : isSilent line with
    | true =>
      simp only [List.filter_cons, hsilent, Bool.not_true, Bool.false_eq_true, if_false] at h hmark
      exact .cons (.skip trivial (by rw [isSkipped_standard, hsilent])) (ih hmark h)
    | false =>
      simp only [List.filter_cons, hsilent, Bool.not_false, if_true] at h hmark
      cases h with
      | cons head tail =>
        cases head with
        | skip _ skipped =>
          rw [isSkipped_standard, hsilent] at skipped
          exact absurd skipped (by decide)
        | enter _ _ mark _ _ =>
          exact absurd (by rw [mark]; rfl) (hmark line List.mem_cons_self)
        | list spoken unmarked going read =>
          refine .cons (.list spoken unmarked going read) (ih ?_ tail)
          exact fun l hl => hmark l (List.mem_cons_of_mem _ hl)

theorem reads_choices (finished : List Room) (room : Room) {lines : List Text}
    {choices : List Choice} (h : List.Forall₂ IsChoice lines choices)
    (hroom : ∀ t ∈ room.transitions, t.isEnding = false) :
    Reads .standard (.listing finished room) lines
      (.listing finished
        { room with transitions := room.transitions ++ choices.map .choice }) := by
  induction h generalizing room with
  | nil =>
    rw [List.map_nil, List.append_nil]
    exact .nil _
  | @cons line c lines choices hc _ ih =>
    have hread := transition_standard_iff.mpr ⟨hroom, .inl ⟨c, hc, rfl⟩⟩
    refine .cons (Move.of_transition finished hread) ?_
    rw [List.map_cons, List.append_cons room.transitions (.choice c) (choices.map _)]
    refine ih { room with transitions := room.transitions ++ [.choice c] } ?_
    intro t ht
    rcases List.mem_append.mp ht with ht | ht
    · exact hroom t ht
    · rw [List.mem_singleton.mp ht]
      rfl

theorem reads_body (finished : List Room) (room : Room) {b : Block} {ts : List Transition}
    (hmark : ∀ line ∈ b.spoken, line.head? ≠ some 'R') (h : b.Leads ts)
    (hroom : room.transitions = []) :
    Reads .standard (.listing finished room) b.body
      (.listing finished { room with transitions := ts }) := by
  refine reads_of_spoken hmark ?_
  have hnone : ∀ t ∈ room.transitions, t.isEnding = false := by
    rw [hroom]
    simp
  rcases h with ⟨line, outcome, hline, hending, rfl⟩ | ⟨choices, hchoices, rfl⟩
  · have hmove := Move.of_transition finished
      (transition_standard_iff.mpr ⟨hnone, .inr ⟨hroom, outcome, hending, rfl⟩⟩)
    rw [hroom, List.nil_append] at hmove
    rw [← Block.spoken, hline]
    exact .single hmove
  · have hreads := reads_choices finished room hchoices hnone
    rwa [hroom, List.nil_append] at hreads

theorem reads_block (place : Place) {b : Block} {r : Room} (houtside : place.IsOutside)
    (h : b.Drafts r) (hnew : r.id ∉ place.ids) :
    Reads .standard place b.lines (.listing place.roomsBefore r) := by
  obtain ⟨s, hs, hread⟩ := isHeader_iff.mpr h.header
  have hspoken : isSkipped .standard b.header = false := by
    rw [isSkipped_standard, isSilent_eq_false_of_head? h.header.head?_eq]
  refine .cons (.enter houtside hspoken hs hread hnew) ?_
  refine (reads_description h.unended).append (.cons .close ?_)
  have hbody := reads_body place.roomsBefore ⟨r.id, r.title, joinLines b.description, []⟩
    h.unmarked h.leads rfl
  rw [List.nil_append]
  rwa [← h.description] at hbody ⊢

/-- Blocks are read one after the other, as long as their ids are new. -/
theorem reads_blocks (finished : List Room) (room : Room) {blocks : List Block}
    {rooms : List Room} (h : List.Forall₂ Block.Drafts blocks rooms)
    (hnew : ((finished ++ room :: rooms).map (·.id)).Nodup) :
    ∃ before last, finished ++ room :: rooms = before ++ [last] ∧
      Reads .standard (.listing finished room) (blocks.flatMap Block.lines)
        (.listing before last) := by
  induction h generalizing finished room with
  | nil => exact ⟨finished, room, rfl, .nil _⟩
  | @cons b r blocks rooms hb _ ih =>
    rw [List.append_cons] at hnew
    obtain ⟨before, last, heq, hreads⟩ := ih (finished ++ [room]) r hnew
    have hid : r.id ∉ (Place.listing finished room).ids := by
      rw [List.map_append, List.nodup_append] at hnew
      intro hmem
      have hmem' : r.id ∈ (finished ++ [room]).map (·.id) := by simpa [Place.ids] using hmem
      exact hnew.2.2 r.id hmem' r.id (by simp) rfl
    refine ⟨before, last, by rw [List.append_cons, heq], ?_⟩
    exact (reads_block (.listing finished room) trivial hb hid).append hreads

/-- The reader accepts a cut and reads it as its rooms. -/
theorem reads_cut {c : Cut} {rooms : List Room} (h : c.Denotes rooms) :
    ∃ before last, rooms = before ++ [last] ∧
      Reads .standard .preamble c.lines (.listing before last) := by
  have hdrafts := h.drafts
  have hne := h.blocks_ne_nil
  have hdistinct := h.distinct
  unfold Cut.lines
  cases hblocks : c.blocks with
  | nil => exact absurd hblocks hne
  | cons b blocks =>
    rw [hblocks, List.forall₂_cons_left_iff] at hdrafts
    obtain ⟨r, rest, hb, hrest, rfl⟩ := hdrafts
    obtain ⟨before, last, heq, hreads⟩ := reads_blocks [] r hrest hdistinct
    refine ⟨before, last, heq, (reads_silent .preamble trivial h.silent).append ?_⟩
    exact (reads_block .preamble trivial hb (by simp [Place.ids])).append hreads

/-! ## From the reader to a cut -/

/-- What a place says about the lines before it: they are cut like a story, but the
last room may lack transitions or the end of its description. -/
inductive Account : List Text → Place → Prop where
  | preamble (silent : List Text) (h : ∀ line ∈ silent, isSilent line = true) :
      Account silent .preamble
  | describing {silent : List Text} {blocks : List Block} {finished : List Room}
      (header : Text) {id title : Text} {description : List Text}
      (h : ∀ line ∈ silent, isSilent line = true)
      (drafts : List.Forall₂ Block.Drafts blocks finished) (head : IsHeader header id title)
      (unended : descriptionEnd ∉ description)
      (distinct : (finished.map (·.id) ++ [id]).Nodup) :
      Account (silent ++ blocks.flatMap Block.lines ++ header :: description)
        (.describing finished id title description)
  | listing {silent : List Text} {blocks : List Block} {finished : List Room} {b : Block}
      {room : Room} (h : ∀ line ∈ silent, isSilent line = true)
      (drafts : List.Forall₂ Block.Drafts blocks finished) (draft : b.Drafts room)
      (distinct : (finished.map (·.id) ++ [room.id]).Nodup) :
      Account (silent ++ blocks.flatMap Block.lines ++ b.lines) (.listing finished room)

/-- The block with one more line at its end. -/
def Block.snoc (b : Block) (line : Text) : Block := { b with body := b.body ++ [line] }

theorem Block.lines_snoc (b : Block) (line : Text) : (b.snoc line).lines = b.lines ++ [line] := by
  simp [Block.lines, Block.snoc]

theorem Block.spoken_snoc_of_silent (b : Block) {line : Text} (h : isSilent line = true) :
    (b.snoc line).spoken = b.spoken := by
  simp [Block.spoken, Block.snoc, h]

theorem Block.spoken_snoc (b : Block) {line : Text} (h : isSilent line = false) :
    (b.snoc line).spoken = b.spoken ++ [line] := by
  simp [Block.spoken, Block.snoc, h]

theorem Block.Drafts.snoc_silent {b : Block} {r : Room} {line : Text} (h : b.Drafts r)
    (hsilent : isSilent line = true) : (b.snoc line).Drafts r where
  header := h.header
  unended := h.unended
  description := h.description
  unmarked := by
    rw [b.spoken_snoc_of_silent hsilent]
    exact h.unmarked
  leads := by
    rw [Block.Leads, b.spoken_snoc_of_silent hsilent]
    exact h.leads

/-- Transitions that still admit another one are choices. -/
theorem Block.Leads.choices {b : Block} {ts : List Transition} (h : b.Leads ts)
    (hnone : ∀ t ∈ ts, t.isEnding = false) :
    ∃ choices, List.Forall₂ IsChoice b.spoken choices ∧ ts = choices.map .choice := by
  rcases h with ⟨line, outcome, -, -, rfl⟩ | h
  · exact absurd (hnone (.ending outcome) List.mem_cons_self) (by simp [Transition.isEnding])
  · exact h

theorem Block.Leads.snoc {b : Block} {ts : List Transition} {line : Text} {t : Transition}
    (h : b.Leads ts) (hread : transition .standard ts line = .ok t) :
    (b.snoc line).Leads (ts ++ [t]) := by
  obtain ⟨hnone, hline⟩ := transition_standard_iff.mp hread
  obtain ⟨choices, hchoices, rfl⟩ := h.choices hnone
  rw [Block.Leads, b.spoken_snoc (transition_standard_plain hread).1]
  rcases hline with ⟨c, hc, rfl⟩ | ⟨hnil, outcome, hending, rfl⟩
  · exact .inr ⟨choices ++ [c], List.rel_append hchoices (.cons hc .nil), by simp⟩
  · obtain rfl : choices = [] := by simpa using hnil
    rw [List.forall₂_nil_right_iff.mp hchoices]
    exact .inl ⟨line, outcome, rfl, hending, rfl⟩

theorem Block.Drafts.snoc_transition {b : Block} {r : Room} {line : Text} {t : Transition}
    (h : b.Drafts r) (hread : transition .standard r.transitions line = .ok t) :
    (b.snoc line).Drafts { r with transitions := r.transitions ++ [t] } where
  header := h.header
  unended := h.unended
  description := h.description
  unmarked := by
    obtain ⟨hspoken, hmark, -⟩ := transition_standard_plain hread
    rw [b.spoken_snoc hspoken]
    intro l hl
    rcases List.mem_append.mp hl with hl | hl
    · exact h.unmarked l hl
    · rwa [List.mem_singleton.mp hl]
  leads := h.leads.snoc hread

theorem Block.drafts_close {header id title : Text} {description : List Text}
    (head : IsHeader header id title) (unended : descriptionEnd ∉ description) :
    (Block.mk header description []).Drafts ⟨id, title, joinLines description, []⟩ where
  header := head
  unended := unended
  description := rfl
  unmarked := by simp [Block.spoken]
  leads := .inr ⟨[], .nil, rfl⟩

/-- A new header starts a block after the finished ones. -/
theorem Account.enter {lines : List Text} {place : Place} {line s id title : Text}
    (h : Account lines place) (houtside : place.IsOutside)
    (mark : line = Markers.standard.room ++ s) (read : header .standard s = .ok (id, title))
    (new : id ∉ place.ids) :
    Account (lines ++ [line]) (.describing place.roomsBefore id title []) := by
  have head : IsHeader line id title := isHeader_iff.mp ⟨s, mark, read⟩
  cases h with
  | preamble silent hsilent =>
    have haccount := Account.describing line hsilent .nil head
      List.not_mem_nil (by simp)
    rwa [List.flatMap_nil, List.append_nil] at haccount
  | describing => exact houtside.elim
  | @listing silent blocks finished b room hsilent drafts draft distinct =>
    have hnew : ((finished ++ [room]).map (·.id) ++ [id]).Nodup := by
      rw [List.map_append, List.map_singleton, List.nodup_append]
      refine ⟨distinct, by simp, fun a ha b hb hab => new ?_⟩
      rw [List.mem_singleton.mp hb] at hab
      exact hab ▸ ha
    have haccount := Account.describing line hsilent
      (List.rel_append drafts (.cons draft .nil)) head List.not_mem_nil hnew
    simpa [List.append_assoc, Place.roomsBefore] using haccount

theorem Account.move {lines : List Text} {place next : Place} {line : Text}
    (h : Account lines place) (hmove : Move .standard place line next) :
    Account (lines ++ [line]) next := by
  cases hmove with
  | skip outside skipped =>
    rw [isSkipped_standard] at skipped
    cases h with
    | preamble _ hsilent =>
      refine .preamble _ ?_
      intro l hl
      rcases List.mem_append.mp hl with hl | hl
      · exact hsilent l hl
      · rwa [List.mem_singleton.mp hl]
    | describing => exact absurd outside id
    | listing hsilent drafts draft distinct =>
      rw [List.append_assoc, ← Block.lines_snoc]
      exact .listing hsilent drafts (draft.snoc_silent skipped) distinct
  | enter outside spoken mark read new => exact h.enter outside mark read new
  | close =>
    cases h with
    | @describing silent blocks _ header _ _ description hsilent drafts head unended distinct =>
      have haccount := Account.listing hsilent drafts (Block.drafts_close head unended) distinct
      rw [Block.lines, ← List.cons_append, ← List.append_assoc] at haccount
      exact haccount
  | describe going =>
    cases h with
    | @describing silent blocks _ header _ _ description hsilent drafts head unended distinct =>
      rw [List.append_assoc, List.cons_append]
      refine .describing header hsilent drafts head ?_ distinct
      rw [List.mem_append, List.mem_singleton, not_or]
      exact ⟨unended, Ne.symm going⟩
  | list spoken unmarked going read =>
    cases h with
    | listing hsilent drafts draft distinct =>
      rw [List.append_assoc, ← Block.lines_snoc]
      exact .listing hsilent drafts (draft.snoc_transition read) distinct

/-- A block that leads somewhere says something. -/
theorem Block.Drafts.denotes {b : Block} {r : Room} (h : b.Drafts r) (hne : r.transitions ≠ []) :
    b.Denotes r where
  toDrafts := h
  spoken_ne_nil := by
    intro hnil
    rcases h.leads with ⟨line, outcome, hline, -⟩ | ⟨choices, hchoices, hts⟩
    · simp [hnil] at hline
    · rw [hnil, List.forall₂_nil_left_iff] at hchoices
      exact hne (by rw [hts, hchoices]; rfl)

theorem Account.denotes {lines : List Text} {finished : List Room} {room : Room}
    (h : Account lines (.listing finished room))
    (hne : ∀ r ∈ finished ++ [room], r.transitions ≠ []) :
    ∃ c : Cut, c.lines = lines ∧ c.Denotes (finished ++ [room]) := by
  cases h with
  | @listing silent blocks _ b _ hsilent drafts draft distinct =>
    refine ⟨⟨silent, blocks ++ [b]⟩, by simp [Cut.lines], hsilent, by simp, ?_, ?_⟩
    · have hdrafts := List.rel_append drafts (.cons draft .nil)
      refine (List.forall₂_iff_zip.mpr ⟨hdrafts.length_eq, fun {b' r'} hzip => ?_⟩)
      exact (List.forall₂_zip hdrafts hzip).denotes (hne r' (List.of_mem_zip hzip).2)
    · rw [List.map_append, List.map_singleton]
      exact distinct

/-! ## Reading -/

theorem Block.Denotes.transitions_ne_nil {b : Block} {r : Room} (h : b.Denotes r) :
    r.transitions ≠ [] := by
  intro hnil
  rcases h.leads with ⟨line, outcome, -, -, hts⟩ | ⟨choices, hchoices, hts⟩
  · simp [hnil] at hts
  · obtain rfl : choices = [] := by simpa [hnil] using hts.symm
    exact h.spoken_ne_nil (List.forall₂_nil_right_iff.mp hchoices)

theorem Cut.Denotes.transitions_ne_nil {c : Cut} {rooms : List Room} (h : c.Denotes rooms) :
    ∀ r ∈ rooms, r.transitions ≠ [] := by
  intro r hr
  obtain ⟨b, -, hb⟩ := exists_left_of_forall₂ h.blocks hr
  exact hb.transitions_ne_nil

theorem exists_cut_of_read {raw : List Text} {story : Story}
    (h : Story.read .standard raw = .ok story) :
    ∃ c : Cut, c.lines = raw.map trim ∧ c.Denotes story.rooms := by
  obtain ⟨finished, room, hreads, hrooms, hne⟩ := read_eq_ok_iff.mp h
  have haccount := hreads.invariant (I := Account) Account.move (.preamble [] (by simp))
  rw [List.nil_append] at haccount
  rw [hrooms] at hne ⊢
  exact haccount.denotes hne

theorem read_of_cut {raw : List Text} {c : Cut} {rooms : List Room}
    (hlines : c.lines = raw.map trim) (h : c.Denotes rooms) :
    ∃ story, Story.read .standard raw = .ok story ∧ story.rooms = rooms := by
  obtain ⟨before, last, rfl, hreads⟩ := reads_cut h
  rw [hlines] at hreads
  exact ⟨⟨before ++ [last], by simp⟩,
    read_eq_ok_iff.mpr ⟨before, last, hreads, rfl, h.transitions_ne_nil⟩, rfl⟩

/-- Lines are read as a story exactly if their trimmed lines have a cut that reads as
rooms; the cut is the only one, and the story has the rooms that it reads as. -/
theorem read_iff_grammar (raw : List Text) :
    ((∃ story, Story.read .standard raw = .ok story) ↔
      ∃ (c : Cut) (rooms : List Room), c.lines = raw.map trim ∧ c.Denotes rooms) ∧
    (∀ (c c' : Cut) (rooms rooms' : List Room), c.lines = raw.map trim → c'.lines = raw.map trim →
      c.Denotes rooms → c'.Denotes rooms' → c = c' ∧ rooms = rooms') ∧
    ∀ (story : Story) (c : Cut) (rooms : List Room), Story.read .standard raw = .ok story →
      c.lines = raw.map trim → c.Denotes rooms → story.rooms = rooms := by
  refine ⟨⟨?_, ?_⟩, ?_, ?_⟩
  · intro h
    obtain ⟨story, h⟩ := h
    obtain ⟨c, hlines, hdenotes⟩ := exists_cut_of_read h
    exact ⟨c, story.rooms, hlines, hdenotes⟩
  · intro h
    obtain ⟨c, rooms, hlines, hdenotes⟩ := h
    obtain ⟨story, h, -⟩ := read_of_cut hlines hdenotes
    exact ⟨story, h⟩
  · intro c c' rooms rooms' hlines hlines' h h'
    obtain rfl := h.cut_unique h' (hlines.trans hlines'.symm)
    exact ⟨rfl, h.rooms_unique h'⟩
  · intro story c rooms hread hlines h
    obtain ⟨story', hread', hrooms⟩ := read_of_cut hlines h
    obtain rfl : story = story' := Except.ok.inj (hread.symm.trans hread')
    exact hrooms

/-- A comment, a header, a description and an ending. -/
theorem read_iff_grammar_cellar :
    ∃ c : Cut,
      c.lines = ["# deep".toList, "Rcellar: Cellar".toList, "dark".toList, ";;;".toList,
        "=)".toList] ∧
      c.Denotes [⟨"cellar".toList, "Cellar".toList, "dark".toList, [.ending .success]⟩] := by
  let raw := ["# deep".toList, "Rcellar: Cellar".toList, "dark".toList, ";;;".toList, "=)".toList]
  let story : Story :=
    ⟨[⟨"cellar".toList, "Cellar".toList, "dark".toList, [.ending .success]⟩], by simp⟩
  have hread : Story.read .standard raw = .ok story := rfl
  obtain ⟨c, rooms, hlines, h⟩ := (read_iff_grammar raw).1.mp ⟨story, hread⟩
  obtain rfl := (read_iff_grammar raw).2.2 story c rooms hread hlines h
  exact ⟨c, hlines, h⟩

end Gamebook.Story.Grammar
