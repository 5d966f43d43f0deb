import Gamebook.Proofs.Story.Moves
import Mathlib.Data.List.Nodup
set_option autoImplicit false

/-!
# What every story that is read has

Whatever the marks are, a story that is read has rooms with ids of their own, its
names are trimmed and not empty, and each room has an ending alone or choices only.
Names hold no characters but those of the lines.  All of it is kept by every move of
the reader.
-/

namespace Gamebook

open Text

/-! ## Lawful rooms -/

/-- A name that is read off lines whose characters all have a property. -/
structure IsName (P : Char → Prop) (s : Text) : Prop where
  ne_nil : s ≠ []
  trimmed : IsTrimmed s
  chars : ∀ c ∈ s, P c

theorem isName_trim {P : Char → Prop} {s : Text} (hne : trim s ≠ []) (h : ∀ c ∈ s, P c) :
    IsName P (trim s) :=
  ⟨hne, isTrimmed_trim s, fun c hc => h c (mem_of_mem_trim hc)⟩

theorem IsName.isAllBlank {P : Char → Prop} {s : Text} (h : IsName P s) :
    isAllBlank s = false := by
  rw [← trim_ne_nil_iff, trim_eq_self h.trimmed]
  exact h.ne_nil

/-- The transitions are an ending alone or choices only. -/
def Transition.Unmixed (ts : List Transition) : Prop :=
  (∃ outcome, ts = [.ending outcome]) ∨ ∀ t ∈ ts, t.isEnding = false

/-- The room has a name, so have the rooms it leads to, and an ending stands alone. -/
structure Room.Lawful (P : Char → Prop) (r : Room) : Prop where
  id : IsName P r.id
  targets : ∀ c, .choice c ∈ r.transitions → IsName P c.target
  unmixed : Transition.Unmixed r.transitions

/-- The rooms of the story are lawful, have ids of their own and lead somewhere. -/
structure Story.Lawful (P : Char → Prop) (s : Story) : Prop where
  rooms : ∀ r ∈ s.rooms, r.Lawful P
  ids_nodup : s.ids.Nodup
  transitions_ne_nil : ∀ r ∈ s.rooms, r.transitions ≠ []

/-- Among rooms with ids of their own each is found by its id. -/
theorem Room.find?_id_of_nodup {rooms : List Room} (h : (rooms.map (·.id)).Nodup) {r : Room}
    (hr : r ∈ rooms) : rooms.find? (·.id = r.id) = some r := by
  cases hfind : rooms.find? (·.id = r.id) with
  | none => exact absurd (decide_eq_true rfl) (List.find?_eq_none.mp hfind r hr)
  | some r' =>
    have hid : r'.id = r.id := by simpa using List.find?_some hfind
    rw [List.inj_on_of_nodup_map h (List.mem_of_find?_eq_some hfind) hr hid]

/-! ## Names in lines -/

namespace Story.Reader

variable {m : Markers} {P : Char → Prop}

theorem mem_of_cut {separator s before tail : Text} (h : s = before ++ separator ++ tail) :
    (∀ c ∈ before, c ∈ s) ∧ ∀ c ∈ tail, c ∈ s := by
  subst h
  exact ⟨fun c hc => List.mem_append_left _ (List.mem_append_left _ hc),
    fun c hc => List.mem_append_right _ hc⟩

theorem isName_of_header {line s id title : Text} (hline : line = m.room ++ s)
    (hread : header m s = .ok (id, title)) (hP : ∀ c ∈ line, P c) : IsName P id := by
  obtain ⟨-, before, tail, hcut, hne, rfl, -⟩ := header_eq_ok_iff.mp hread
  refine isName_trim hne fun c hc => hP c ?_
  rw [hline]
  exact List.mem_append_right _ ((mem_of_cut hcut.eq).1 c hc)

theorem isName_of_choice {line s : Text} {c : Choice} (hline : line = m.choice ++ s)
    (hread : choice m s = .ok c) (hP : ∀ ch ∈ line, P ch) : IsName P c.target := by
  obtain ⟨-, -, text, tail, hcut, -, htarget, hne⟩ := choice_eq_ok_iff.mp hread
  have htail : ∀ ch ∈ tail, P ch := fun ch hch => hP ch (by
    rw [hline]
    exact List.mem_append_right _ ((mem_of_cut hcut.eq).2 ch hch))
  rcases htarget with ⟨before, rest, hlast, heq, -⟩ | ⟨-, heq, -⟩
  · rw [heq] at hne ⊢
    exact isName_trim hne fun ch hch => htail ch ((mem_of_cut hlast.eq).1 ch hch)
  · rw [heq] at hne ⊢
    exact isName_trim hne htail

/-- A room stays lawful with one more transition. -/
theorem lawful_append {r : Room} {line : Text} {t : Transition} (h : r.Lawful P)
    (hread : transition m r.transitions line = .ok t) (hP : ∀ c ∈ line, P c) :
    ({ r with transitions := r.transitions ++ [t] } : Room).Lawful P := by
  obtain ⟨hnone, hline⟩ := transition_eq_ok_iff.mp hread
  refine ⟨h.id, fun c hc => ?_, ?_⟩
  · rcases List.mem_append.mp hc with hc | hc
    · exact h.targets c hc
    · obtain rfl := List.mem_singleton.mp hc
      rcases hline with ⟨s, c', hs, hchoice, heq⟩ | ⟨-, -, _, -, heq⟩
      · cases heq
        exact isName_of_choice hs hchoice hP
      · cases heq
  · rcases hline with ⟨s, c, -, -, rfl⟩ | ⟨-, hnil, outcome, -, rfl⟩
    · refine .inr ?_
      intro e he
      rcases List.mem_append.mp he with he | he
      · exact hnone e he
      · rw [List.mem_singleton.mp he]
        rfl
    · exact .inl ⟨outcome, by simp [hnil]⟩

/-! ## Lawful places -/

/-- The rooms at a place are lawful and have ids of their own. -/
def Place.Lawful (P : Char → Prop) : Place → Prop
  | .preamble => True
  | .describing finished id _ _ =>
    (∀ r ∈ finished, r.Lawful P) ∧ IsName P id ∧ (finished.map (·.id) ++ [id]).Nodup
  | .listing finished room =>
    (∀ r ∈ finished ++ [room], r.Lawful P) ∧ (finished.map (·.id) ++ [room.id]).Nodup

theorem Place.Lawful.roomsBefore {place : Place} (h : place.Lawful P) :
    ∀ r ∈ place.roomsBefore, r.Lawful P := by
  cases place with
  | listing => exact h.1
  | preamble => simp [Place.roomsBefore]
  | describing => simp [Place.roomsBefore]

theorem Place.Lawful.ids_nodup {place : Place} (h : place.Lawful P) : place.ids.Nodup := by
  cases place with
  | preamble => exact List.nodup_nil
  | describing => exact h.2.2
  | listing => exact h.2

theorem Place.ids_of_isOutside {place : Place} (h : place.IsOutside) :
    place.roomsBefore.map (·.id) = place.ids := by
  cases place with
  | preamble => rfl
  | describing => exact h.elim
  | listing => simp [Place.roomsBefore, Place.ids]

/-- Every move keeps places lawful. -/
theorem Place.Lawful.move {place next : Place} {line : Text} (h : place.Lawful P)
    (hmove : Move m place line next) (hP : ∀ c ∈ line, P c) : next.Lawful P := by
  cases hmove with
  | skip => exact h
  | enter outside _ mark read new =>
    refine ⟨h.roomsBefore, isName_of_header mark read hP, ?_⟩
    rw [Place.ids_of_isOutside outside, List.nodup_append]
    refine ⟨h.ids_nodup, by simp, fun a ha b hb hab => new ?_⟩
    rw [List.mem_singleton.mp hb] at hab
    exact hab ▸ ha
  | close =>
    refine ⟨?_, h.2.2⟩
    intro r hr
    rcases List.mem_append.mp hr with hr | hr
    · exact h.1 r hr
    · rw [List.mem_singleton.mp hr]
      exact ⟨h.2.1, by simp, .inr (by simp)⟩
  | describe => exact h
  | @list finished room _ t _ _ _ read =>
    refine ⟨?_, h.2⟩
    intro r hr
    rcases List.mem_append.mp hr with hr | hr
    · exact h.1 r (List.mem_append_left _ hr)
    · rw [List.mem_singleton.mp hr]
      exact lawful_append (h.1 room (by simp)) read hP

theorem Reads.lawful {place last : Place} {lines : List Text} (h : Reads m place lines last)
    (hplace : place.Lawful P) (hP : ∀ line ∈ lines, ∀ c ∈ line, P c) : last.Lawful P := by
  induction h with
  | nil => exact hplace
  | cons head _ ih =>
    exact ih (hplace.move head (hP _ List.mem_cons_self))
      fun line hline => hP line (List.mem_cons_of_mem _ hline)

end Story.Reader

/-- A story that is read is lawful, and its names hold characters of the lines
only. -/
theorem Story.lawful_of_read {m : Markers} {P : Char → Prop} {raw : List Text} {story : Story}
    (h : Story.read m raw = .ok story) (hP : ∀ line ∈ raw, ∀ c ∈ line, P c) :
    story.Lawful P := by
  obtain ⟨finished, room, hreads, hrooms, hne⟩ := Reader.read_eq_ok_iff.mp h
  have hlines : ∀ line ∈ raw.map trim, ∀ c ∈ line, P c := by
    intro line hline c hc
    obtain ⟨rawLine, hraw, rfl⟩ := List.mem_map.mp hline
    exact hP rawLine hraw c (mem_of_mem_trim hc)
  obtain ⟨hlawful, hnodup⟩ := hreads.lawful trivial hlines
  refine ⟨?_, ?_, hne⟩
  · rw [hrooms]
    exact hlawful
  · rw [Story.ids, hrooms, List.map_append]
    exact hnodup

end Gamebook
