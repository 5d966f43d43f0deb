import Gamebook.Proofs.Loading.Chain
import Gamebook.Proofs.Session.Run
import Gamebook.Proofs.Story.Lawful
set_option autoImplicit false

/-!
# Names that a play meets

Every id that a loaded story or one of its plays can stand in is trimmed, not empty
and free of line breaks, whether the story has a room with it or not: ids come from
headers, from choices, or from the room line of a bookmark.
-/

namespace Gamebook

open Text

/-- A name that stands in a line of its own. -/
abbrev IsLineName (s : Text) : Prop := IsName (fun c => isLineBreak c = false) s

namespace World

variable {w : World} {f : Format} {path : Text} {loaded : Loaded}

/-- The story in a file is lawful, and its names have no line breaks in them. -/
theorem IsStory.lawful {story : Story} (h : IsStory w f path story) :
    story.Lawful fun c => isLineBreak c = false := by
  obtain ⟨first, rest, hlines, -, hread⟩ := h
  exact Story.lawful_of_read hread fun line hline =>
    isLine_of_mem_readLines hlines (List.mem_cons_of_mem _ hline)

theorem lawful_of_load (h : w.load f path = .ok loaded) :
    loaded.story.Lawful fun c => isLineBreak c = false := by
  obtain ⟨hops, -, hstory, -⟩ := exists_chain_of_load h
  exact hstory.lawful

theorem IsBookmark.isLineName_room {b : Bookmark} (h : IsBookmark w f path b) :
    IsLineName b.room := by
  obtain ⟨first, storyLine, roomLine, rest, hlines, -, -, -, hroom, rfl⟩ := h
  exact isName_trim (trim_ne_nil_iff.mpr hroom) (isLine_of_mem_readLines hlines (by simp))

theorem isLineName_opening {story : Story} (h : story.Lawful fun c => isLineBreak c = false) :
    IsLineName story.opening.id :=
  (h.rooms _ (List.head_mem story.rooms_ne_nil)).id

/-- Loading says to start in a room with a name. -/
theorem isLineName_room_of_load (h : w.load f path = .ok loaded) : IsLineName loaded.room := by
  obtain ⟨hops, hchain, hstory, hroom⟩ := exists_chain_of_load h
  rw [hroom]
  cases hchain with
  | stay => exact isLineName_opening hstory.lawful
  | hop found rest => exact found.isLineName_room

end World

namespace Situation

variable {σ : Type}

/-- Wherever a play of a loaded story gets to, it has a name. -/
theorem isLineName_of_run (dice : Dice σ) (m : Markers) {w : World} {f : Format} {path : Text}
    {loaded : Loaded} (h : w.load f path = .ok loaded) {s : Situation σ}
    {source? : Option Text} {luck : σ}
    (hstart : s.session = .start loaded.story source? (some loaded.room) luck)
    (ops : List Operation) :
    (s.run dice m ops).2.session.story = loaded.story ∧
      (s.run dice m ops).2.session.source? = source? ∧
      ∀ id, (s.run dice m ops).2.session.position = .active id → IsLineName id := by
  have hlawful := World.lawful_of_load h
  have hroom := World.isLineName_room_of_load h
  have hposition : s.session.position = .active loaded.room := by
    rw [hstart, Session.start]
    cases hcase : loaded.room with
    | nil => exact absurd hcase hroom.ne_nil
    | cons c rest => rfl
  have hstory : s.session.story = loaded.story := by
    rw [hstart]
    rfl
  have hsource : s.session.source? = source? := by
    rw [hstart]
    rfl
  rw [← hstory, ← hsource]
  refine s.run_position dice m ?_ ?_ ops
  · intro id hid
    obtain rfl := Position.active.inj (hposition.symm.trans hid)
    exact hroom
  · intro r hr
    rw [hstory] at hr
    exact (hlawful.rooms r hr).targets

end Situation

end Gamebook
