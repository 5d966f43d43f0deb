import Gamebook.Proofs.Bookmark.Writing
import Gamebook.Proofs.Loading.Names
set_option autoImplicit false

/-!
# Bookmarks that survive their file

A bookmark is written in three lines without any care for what is in its texts, and read from
the lines that come of it.  The first line is always the mark.  The two others are read as they
were written exactly if each of the texts stands in a line of its own; a text with a line break
in it moves what comes after it, blanks at its ends are trimmed away, and of a blank text
nothing is left.

What has been read from a file stands in lines of its own, so that a bookmark loses
nothing more once it has been read.
-/

namespace Gamebook

open Text

/-- A text stands in a line of its own if trimming leaves it alone and no line breaks in it. -/
theorem isLineName_iff {s : Text} : IsLineName s ↔ s ≠ [] ∧ trim s = s ∧ IsLine s :=
  ⟨fun h => ⟨h.ne_nil, trim_eq_self h.trimmed, h.chars⟩,
    fun h => ⟨h.1, trim_eq_self_iff.mp h.2.1, h.2.2⟩⟩

namespace Bookmark

/-- Both texts of the bookmark stand in lines of their own. -/
structure Keeps (b : Bookmark) : Prop where
  story : IsLineName b.story
  room : IsLineName b.room

/-- Whatever lines it is read from, a bookmark can be kept. -/
theorem keeps_of_ofLines {ls : List Text} {b : Bookmark} (hls : ∀ line ∈ ls, IsLine line)
    (h : ofLines ls = .ok b) : b.Keeps := by
  obtain ⟨storyLine, roomLine, rest, rfl, hstory, hroom, rfl⟩ := World.ofLines_eq_ok_iff.mp h
  exact ⟨isName_trim (trim_ne_nil_iff.mpr hstory) (hls storyLine (by simp)),
    isName_trim (trim_ne_nil_iff.mpr hroom) (hls roomLine (by simp))⟩

theorem Keeps.ofLines {b : Bookmark} (h : b.Keeps) (rest : List Text) :
    ofLines (b.story :: b.room :: rest) = .ok b := by
  refine World.ofLines_eq_ok_iff.mpr
    ⟨b.story, b.room, rest, rfl, h.story.isAllBlank, h.room.isAllBlank, ?_⟩
  rw [trim_eq_self h.story.trimmed, trim_eq_self h.room.trimmed]

/-- The texts of a bookmark are read back from what they are written as exactly if they stand
in lines of their own. -/
theorem ofLines_lines_eq_ok_iff {b : Bookmark} :
    ofLines (lines (unlines [b.story, b.room])) = .ok b ↔ b.Keeps := by
  constructor
  · exact keeps_of_ofLines fun line hline => isLine_of_mem_lines hline
  · intro h
    rw [lines_unlines (by simpa using ⟨h.story.chars, h.room.chars⟩)]
    exact h.ofLines []

end Bookmark

namespace World

variable {w after : World} {path : Text} {b : Bookmark}

/-- The mark of a bookmark can be encoded. -/
theorem encodes_toLines {m : Markers} (hmark : w.disk.Encodes m.bookmarkMagic)
    (hstory : w.disk.Encodes b.story) (hroom : w.disk.Encodes b.room) :
    ∀ line ∈ b.toLines m, w.disk.Encodes line := by
  simpa [Bookmark.toLines] using ⟨hmark, hstory, hroom⟩

theorem encodes_bookmarkMagic (d : Disk) : d.Encodes Markers.standard.bookmarkMagic := by
  intro c hc
  have hplain : ∀ c ∈ Markers.standard.bookmarkMagic, c.toNat < 0x100000 := by
    simp [Markers.standard]
  exact Disk.isStray_of_lt (hplain c hc)

/-- A bookmark whose texts can be encoded is saved where the disk takes a file, whatever else is in
its texts. -/
theorem Takes.exists_saveBookmark (h : w.Takes path) (hstory : w.disk.Encodes b.story)
    (hroom : w.disk.Encodes b.room) :
    ∃ after, w.saveBookmark .standard path b = (.ok (), after) :=
  h.exists_writeLines (encodes_toLines (encodes_bookmarkMagic _) hstory hroom)

/-- The file of a bookmark starts with the mark, whatever becomes of the other lines. -/
theorem readLines_of_saveBookmark (h : w.saveBookmark .standard path b = (.ok (), after)) :
    after.readLines path =
      .ok (Markers.standard.bookmarkMagic :: lines (unlines [b.story, b.room])) := by
  have hmark : IsLine Markers.standard.bookmarkMagic := by decide
  have hunlines : unlines (b.toLines .standard) =
      Markers.standard.bookmarkMagic ++ '\n' :: unlines [b.story, b.room] := by
    simp [unlines, Bookmark.toLines]
  rw [readLines_of_readBytes (readBytes_of_writeBytes (writeBytes_of_writeLines h)), hunlines,
    lines_append_newline hmark]

/-- What is read of a bookmark that has been saved. -/
theorem content_of_saveBookmark (h : w.saveBookmark .standard path b = (.ok (), after)) :
    after.content .standard path = ((Bookmark.ofLines (lines (unlines [b.story, b.room]))).mapError
      (LoadCause.incomplete path)).map FileContent.bookmark := by
  have hmark : trim Markers.standard.bookmarkMagic = Format.standard.files.bookmarkMagic := by
    decide
  have hstory : trim Markers.standard.bookmarkMagic ≠ Format.standard.files.storyMagic := by
    decide
  rw [content_eq_of_lines (readLines_of_saveBookmark h), contentOfLines, if_neg hstory,
    if_pos hmark]
  cases Bookmark.ofLines (lines (unlines [b.story, b.room])) <;> rfl

theorem content_of_saveBookmark_eq_ok_iff (h : w.saveBookmark .standard path b = (.ok (), after))
    {found : Bookmark} : after.content .standard path = .ok (.bookmark found) ↔
      Bookmark.ofLines (lines (unlines [b.story, b.room])) = .ok found := by
  rw [content_of_saveBookmark h]
  cases Bookmark.ofLines (lines (unlines [b.story, b.room])) <;>
    simp [Except.mapError, Except.map]

theorem content_of_saveBookmark_eq_iff (h : w.saveBookmark .standard path b = (.ok (), after)) :
    after.content .standard path = .ok (.bookmark b) ↔ b.Keeps :=
  (content_of_saveBookmark_eq_ok_iff h).trans Bookmark.ofLines_lines_eq_ok_iff

/-- A bookmark with names that stand in lines of their own is read as it is saved. -/
theorem isBookmark_of_saveBookmark (h : w.saveBookmark .standard path b = (.ok (), after))
    (hstory : IsLineName b.story) (hroom : IsLineName b.room) :
    IsBookmark after .standard path b :=
  content_eq_bookmark_iff.mp ((content_of_saveBookmark_eq_iff h).mpr ⟨hstory, hroom⟩)

/-- The bookmark in a file can be kept in another one. -/
theorem keeps_of_content {f : Format} (h : w.content f path = .ok (.bookmark b)) : b.Keeps := by
  obtain ⟨first, storyLine, roomLine, rest, hlines, -, -, hstory, hroom, hb⟩ :=
    content_eq_bookmark_iff.mp h
  have hread : Bookmark.ofLines (storyLine :: roomLine :: rest) = .ok b :=
    ofLines_eq_ok_iff.mpr ⟨_, _, _, rfl, hstory, hroom, hb⟩
  exact Bookmark.keeps_of_ofLines
    (fun line hline => isLine_of_mem_readLines hlines (List.mem_cons_of_mem _ hline)) hread

/-- Where the disk takes a file, every bookmark with texts that can be encoded is saved, and its
file is told from a story by its mark.  It is read as the bookmark that it was exactly if neither of its texts is empty,
changed by trimming or broken into lines; else what is read is another bookmark, or a part of
one is missing.  And a bookmark that was read from whatever file is read as it is from the file
that it is saved in. -/
theorem content_of_saveBookmark_iff (h : w.Takes path) (b : Bookmark)
    (hstory : w.disk.Encodes b.story) (hroom : w.disk.Encodes b.room) :
    ∃ after, w.saveBookmark .standard path b = (.ok (), after) ∧
      (after.content .standard path = .ok (.bookmark b) ↔
        (b.story ≠ [] ∧ trim b.story = b.story ∧ ∀ c ∈ b.story, isLineBreak c = false) ∧
          b.room ≠ [] ∧ trim b.room = b.room ∧ ∀ c ∈ b.room, isLineBreak c = false) ∧
      (after.content .standard path ≠ .ok (.bookmark b) →
        (∃ other ≠ b, after.content .standard path = .ok (.bookmark other)) ∨
          ∃ part, after.content .standard path = .error (.incomplete path part)) ∧
      ∀ (before : World) (source : Text),
        before.content .standard source = .ok (.bookmark b) →
          after.content .standard path = .ok (.bookmark b) := by
  obtain ⟨after, hsave⟩ := h.exists_saveBookmark hstory hroom
  have hkeeps := content_of_saveBookmark_eq_iff hsave
  refine ⟨after, hsave, ?_, ?_, ?_⟩
  · rw [hkeeps]
    exact ⟨fun hb => ⟨isLineName_iff.mp hb.story, isLineName_iff.mp hb.room⟩,
      fun hb => ⟨isLineName_iff.mpr hb.1, isLineName_iff.mpr hb.2⟩⟩
  · intro hother
    cases hread : Bookmark.ofLines (lines (unlines [b.story, b.room])) with
    | error part =>
      right
      exact ⟨part, by rw [content_of_saveBookmark hsave, hread]; rfl⟩
    | ok found =>
      left
      have hfound := (content_of_saveBookmark_eq_ok_iff hsave).mpr hread
      refine ⟨found, ?_, hfound⟩
      rintro rfl
      exact hother hfound
  · intro before source hbefore
    exact hkeeps.mpr (keeps_of_content hbefore)

/-- A bookmark whose story path runs over a line break is read with the second half of the path
as its room. -/
theorem content_of_saveBookmark_iff_cellar :
    Cellar.world.Takes "aside".toList ∧
      ∃ after, Cellar.world.saveBookmark .standard "aside".toList
          ⟨"inner\nstory".toList, "hall".toList⟩ = (.ok (), after) ∧
        after.content .standard "aside".toList ≠
          .ok (.bookmark ⟨"inner\nstory".toList, "hall".toList⟩) := by
  have htakes : Cellar.world.Takes "aside".toList := ⟨["aside".toList], rfl, nofun⟩
  obtain ⟨after, hsave, hiff, -⟩ :=
    content_of_saveBookmark_iff htakes ⟨"inner\nstory".toList, "hall".toList⟩
      (Disk.encodes_of_none rfl _) (Disk.encodes_of_none rfl _)
  refine ⟨htakes, after, hsave, fun hsame => ?_⟩
  have hbreak := (hiff.mp hsame).1.2.2 '\n' (by decide)
  exact absurd hbreak (by decide)

end World

end Gamebook
