import Gamebook.Loading
import Gamebook.Proofs.Text.Lines
import Gamebook.Proofs.World.Resolution
set_option autoImplicit false

/-!
# What single files hold

The file at a path is a story, a complete bookmark, or nothing that can be loaded,
and in the last case for one reason.  The three are said here by the lines of the
file, and loading tells them apart in exactly this way.
-/

namespace Gamebook.World

open Text

variable {w : World} {f : Format} {path : Text}

/-! ## Three kinds of files -/

/-- The file at the path is a story file, and this is its story. -/
def IsStory (w : World) (f : Format) (path : Text) (story : Story) : Prop :=
  ∃ first rest, w.readLines path = .ok (first :: rest) ∧ trim first = f.files.storyMagic ∧
    Story.read f.stories rest = .ok story

/-- The file at the path is a complete bookmark, and this is what it says. -/
def IsBookmark (w : World) (f : Format) (path : Text) (b : Bookmark) : Prop :=
  ∃ first storyLine roomLine rest,
    w.readLines path = .ok (first :: storyLine :: roomLine :: rest) ∧
    trim first ≠ f.files.storyMagic ∧ trim first = f.files.bookmarkMagic ∧
    isAllBlank storyLine = false ∧ isAllBlank roomLine = false ∧
    b = ⟨trim storyLine, trim roomLine⟩

/-- The path leads to neither, and this is why. -/
inductive Fails (w : World) (f : Format) (path : Text) : LoadCause → Prop where
  /-- no disk is asked for the path -/
  | null (h : '\x00' ∈ path) : Fails w f path (.fault (.disk .embeddedNull path))
  /-- the path leads to no text -/
  | unreadable (h : '\x00' ∉ path) (none : ∀ lines, w.readLines path ≠ .ok lines) :
      Fails w f path (.unreadable path)
  /-- the file is empty -/
  | noFirstLine (lines : w.readLines path = .ok []) : Fails w f path (.noFirstLine path)
  /-- the first line is no mark -/
  | unknownMagic {first : Text} {rest : List Text}
      (lines : w.readLines path = .ok (first :: rest)) (story : trim first ≠ f.files.storyMagic)
      (bookmark : trim first ≠ f.files.bookmarkMagic) :
      Fails w f path (.unknownMagic path (trim first))
  /-- a bookmark without a line that names a story -/
  | noStoryLine {first : Text} {rest : List Text}
      (lines : w.readLines path = .ok (first :: rest)) (story : trim first ≠ f.files.storyMagic)
      (bookmark : trim first = f.files.bookmarkMagic)
      (missing : ∀ line ∈ rest.head?, isAllBlank line = true) :
      Fails w f path (.incomplete path .story)
  /-- a bookmark without a line that names a room -/
  | noRoomLine {first storyLine : Text} {rest : List Text}
      (lines : w.readLines path = .ok (first :: storyLine :: rest))
      (story : trim first ≠ f.files.storyMagic) (bookmark : trim first = f.files.bookmarkMagic)
      (present : isAllBlank storyLine = false)
      (missing : ∀ line ∈ rest.head?, isAllBlank line = true) :
      Fails w f path (.incomplete path .room)
  /-- lines that are no story -/
  | noStory {first : Text} {rest : List Text} {e : StoryError}
      (lines : w.readLines path = .ok (first :: rest)) (story : trim first = f.files.storyMagic)
      (refused : Story.read f.stories rest = .error e) : Fails w f path e.cause

/-! ## Reading lines -/

theorem readLines_of_null (h : '\x00' ∈ path) :
    w.readLines path = .error (.fault (.disk .embeddedNull path)) := by
  have hlocate : w.locate (.ofText path) = .error .embeddedNull :=
    locate_eq_embeddedNull_iff.mpr h
  simp [readLines, readBytes, node, hlocate]

theorem readLines_of_readBytes {s : Text} (h : w.readBytes (.ofText path) = .ok s.toBytes) :
    w.readLines path = .ok (lines s) := by
  simp only [readLines, h, ofBytes?_toBytes]

/-- The lines of a file have no line breaks in them. -/
theorem isLine_of_mem_readLines {lines : List Text} {line : Text}
    (h : w.readLines path = .ok lines) (hline : line ∈ lines) : IsLine line := by
  unfold readLines at h
  split at h
  · cases h
  · cases h
  · split at h
    · cases h
    · cases h
      exact isLine_of_mem_lines hline

/-- Nothing below the path reports a null character when it has none. -/
theorem readBytes_ne_embeddedNull (h : '\x00' ∉ path) :
    w.readBytes (.ofText path) ≠ .error .embeddedNull := by
  have hlocate : w.locate (.ofText path) ≠ .error .embeddedNull := fun he =>
    h (locate_eq_embeddedNull_iff.mp he)
  intro hread
  rw [readBytes, node] at hread
  split at hread
  · rename_i e he
    split at he
    · rename_i e' hl
      obtain rfl := Except.error.inj he
      obtain rfl := Except.error.inj hread
      exact hlocate hl
    · split at he
      · simp at he
      · obtain rfl := Except.error.inj he
        simp at hread
  · simp at hread
  · simp at hread

theorem readLines_eq_error_of_no_null (h : '\x00' ∉ path) {cause : LoadCause}
    (hread : w.readLines path = .error cause) : cause = .unreadable path := by
  unfold readLines at hread
  split at hread
  · rename_i hnull
    exact absurd hnull (readBytes_ne_embeddedNull h)
  · exact (Except.error.inj hread).symm
  · split at hread
    · exact (Except.error.inj hread).symm
    · simp at hread

/-- The lines of a path are its lines or the reason why it leads to no text. -/
theorem fails_of_readLines_error {cause : LoadCause} (h : w.readLines path = .error cause) :
    Fails w f path cause := by
  by_cases hnull : '\x00' ∈ path
  · rw [readLines_of_null hnull] at h
    obtain rfl := Except.error.inj h
    exact .null hnull
  · obtain rfl := readLines_eq_error_of_no_null hnull h
    exact .unreadable hnull fun lines hlines => by simp [h] at hlines

/-! ## Bookmarks in lines -/

theorem ofLines_eq_ok_iff {lines : List Text} {b : Bookmark} :
    Bookmark.ofLines lines = .ok b ↔
      ∃ storyLine roomLine rest, lines = storyLine :: roomLine :: rest ∧
        isAllBlank storyLine = false ∧ isAllBlank roomLine = false ∧
        b = ⟨trim storyLine, trim roomLine⟩ := by
  constructor
  · intro h
    rw [Bookmark.ofLines.eq_def] at h
    split at h
    · simp at h
    · rename_i storyLine rest
      split at h
      · simp at h
      · rename_i hstory
        split at h
        · simp at h
        · rename_i roomLine more
          split at h
          · simp at h
          · rename_i hroom
            exact ⟨storyLine, roomLine, more, rfl, trim_ne_nil_iff.mp hstory,
              trim_ne_nil_iff.mp hroom, (Except.ok.inj h).symm⟩
  · intro h
    obtain ⟨storyLine, roomLine, rest, rfl, hstory, hroom, rfl⟩ := h
    simp only [Bookmark.ofLines, if_neg (trim_ne_nil_iff.mpr hstory),
      if_neg (trim_ne_nil_iff.mpr hroom)]

theorem ofLines_eq_error_story_iff {lines : List Text} :
    Bookmark.ofLines lines = .error .story ↔ ∀ line ∈ lines.head?, isAllBlank line = true := by
  cases lines with
  | nil => simp [Bookmark.ofLines]
  | cons storyLine rest =>
    rw [Bookmark.ofLines.eq_def]
    by_cases hstory : trim storyLine = []
    · simp [hstory, trim_eq_nil_iff.mp hstory]
    · simp only [if_neg hstory, List.head?_cons, Option.mem_some, forall_eq',
        ← trim_eq_nil_iff]
      split
      · simpa using hstory
      · split <;> simpa using hstory

theorem ofLines_eq_error_room_iff {lines : List Text} :
    Bookmark.ofLines lines = .error .room ↔
      ∃ storyLine rest, lines = storyLine :: rest ∧ isAllBlank storyLine = false ∧
        ∀ line ∈ rest.head?, isAllBlank line = true := by
  cases lines with
  | nil => simp [Bookmark.ofLines]
  | cons storyLine rest =>
    simp only [List.cons.injEq]
    rw [Bookmark.ofLines.eq_def]
    by_cases hstory : trim storyLine = []
    · have hblank : ¬ isAllBlank storyLine = false := fun h => trim_ne_nil_iff.mpr h hstory
      simp only [if_pos hstory, Except.error.injEq, reduceCtorEq, false_iff]
      intro h
      obtain ⟨storyLine', rest', ⟨rfl, rfl⟩, h, -⟩ := h
      exact hblank h
    · have hpresent := trim_ne_nil_iff.mp hstory
      simp only [if_neg hstory]
      constructor
      · intro h
        refine ⟨storyLine, rest, ⟨rfl, rfl⟩, hpresent, ?_⟩
        split at h
        · simp
        · rename_i roomLine more
          split at h
          · rename_i hroom
            simpa using trim_eq_nil_iff.mp hroom
          · simp at h
      · intro h
        obtain ⟨storyLine', rest', ⟨rfl, rfl⟩, -, hmissing⟩ := h
        cases rest with
        | nil => rfl
        | cons roomLine more => simp only [if_pos (trim_eq_nil_iff.mpr (hmissing roomLine rfl))]

/-! ## What loading finds -/

theorem content_eq_of_lines {lines : List Text} (h : w.readLines path = .ok lines) :
    w.content f path = contentOfLines f path lines := by
  rw [content, h]

theorem content_eq_story_iff {story : Story} :
    w.content f path = .ok (.story story) ↔ IsStory w f path story := by
  constructor
  · intro h
    unfold content at h
    split at h
    · simp at h
    · rename_i lines hlines
      cases lines with
      | nil => simp [contentOfLines] at h
      | cons first rest =>
        rw [contentOfLines] at h
        split at h
        · rename_i hmagic
          split at h
          · simp at h
          · rename_i story' hread
            obtain rfl : story' = story := by simpa using h
            exact ⟨first, rest, hlines, hmagic, hread⟩
        · split at h
          · split at h <;> simp at h
          · simp at h
  · intro h
    obtain ⟨first, rest, hlines, hmagic, hread⟩ := h
    rw [content_eq_of_lines hlines, contentOfLines, if_pos hmagic, hread]

theorem content_eq_bookmark_iff {b : Bookmark} :
    w.content f path = .ok (.bookmark b) ↔ IsBookmark w f path b := by
  constructor
  · intro h
    unfold content at h
    split at h
    · simp at h
    · rename_i lines hlines
      cases lines with
      | nil => simp [contentOfLines] at h
      | cons first rest =>
        rw [contentOfLines] at h
        split at h
        · split at h <;> simp at h
        · rename_i hstory
          split at h
          · rename_i hmagic
            split at h
            · simp at h
            · rename_i b' hb
              obtain rfl : b' = b := by simpa using h
              obtain ⟨storyLine, roomLine, more, rfl, hpath, hroom, rfl⟩ := ofLines_eq_ok_iff.mp hb
              exact ⟨first, storyLine, roomLine, more, hlines, hstory, hmagic, hpath, hroom, rfl⟩
          · simp at h
  · intro h
    obtain ⟨first, storyLine, roomLine, rest, hlines, hstory, hmagic, hpath, hroom, rfl⟩ := h
    rw [content_eq_of_lines hlines, contentOfLines, if_neg hstory, if_pos hmagic,
      ofLines_eq_ok_iff.mpr ⟨storyLine, roomLine, rest, rfl, hpath, hroom, rfl⟩]

theorem fails_of_content {cause : LoadCause} (h : w.content f path = .error cause) :
    Fails w f path cause := by
  unfold content at h
  split at h
  · rename_i cause' hlines
    obtain rfl := Except.error.inj h
    exact fails_of_readLines_error hlines
  · rename_i lines hlines
    cases lines with
    | nil =>
      obtain rfl := Except.error.inj h
      exact .noFirstLine hlines
    | cons first rest =>
      rw [contentOfLines] at h
      split at h
      · rename_i hmagic
        split at h
        · rename_i e hread
          obtain rfl := Except.error.inj h
          exact .noStory hlines hmagic hread
        · simp at h
      · rename_i hstory
        split at h
        · rename_i hmagic
          split at h
          · rename_i missing hmissing
            obtain rfl := Except.error.inj h
            cases missing with
            | story =>
              exact .noStoryLine hlines hstory hmagic (ofLines_eq_error_story_iff.mp hmissing)
            | room =>
              obtain ⟨storyLine, more, rfl, hpath, hroom⟩ := ofLines_eq_error_room_iff.mp hmissing
              exact .noRoomLine hlines hstory hmagic hpath hroom
          · simp at h
        · rename_i hmagic
          obtain rfl := Except.error.inj h
          exact .unknownMagic hlines hstory hmagic

theorem content_of_fails {cause : LoadCause} (h : Fails w f path cause) :
    w.content f path = .error cause := by
  cases h with
  | null hnull => rw [content, readLines_of_null hnull]
  | unreadable hnull hnone =>
    cases hlines : w.readLines path with
    | ok lines => exact absurd hlines (hnone lines)
    | error cause =>
      obtain rfl := readLines_eq_error_of_no_null hnull hlines
      rw [content, hlines]
  | noFirstLine hlines => rw [content_eq_of_lines hlines, contentOfLines]
  | unknownMagic hlines hstory hmagic =>
    rw [content_eq_of_lines hlines, contentOfLines, if_neg hstory, if_neg hmagic]
  | noStoryLine hlines hstory hmagic hmissing =>
    rw [content_eq_of_lines hlines, contentOfLines, if_neg hstory, if_pos hmagic,
      ofLines_eq_error_story_iff.mpr hmissing]
  | noRoomLine hlines hstory hmagic hpath hmissing =>
    rw [content_eq_of_lines hlines, contentOfLines, if_neg hstory, if_pos hmagic,
      ofLines_eq_error_room_iff.mpr ⟨_, _, rfl, hpath, hmissing⟩]
  | noStory hlines hmagic hread =>
    rw [content_eq_of_lines hlines, contentOfLines, if_pos hmagic, hread]

/-- A path that leads to nothing that can be loaded fails for one reason. -/
theorem content_eq_error_iff {cause : LoadCause} :
    w.content f path = .error cause ↔ Fails w f path cause :=
  ⟨fails_of_content, content_of_fails⟩

end Gamebook.World
