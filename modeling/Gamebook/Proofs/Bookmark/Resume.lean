import Gamebook.Proofs.Bookmark.RoundTrip
set_option autoImplicit false

/-!
# Going on at a bookmark

A bookmark that is saved in a play of a loaded story leads back to that story and to
the room in which the play stood, however the story was reached and whatever happened
in the play, as long as the file of the story stays as it is.
-/

namespace Gamebook

open Text

namespace World

variable {w after : World} {path : Text}

/-! ## Stories that stay -/

/-- A story is read as long as its file is. -/
theorem IsStory.of_readBytes {f : Format} {story : Story} (h : IsStory w f path story)
    (hbytes : after.readBytes (.ofText path) = w.readBytes (.ofText path)) :
    IsStory after f path story := by
  have hlines : after.readLines path = w.readLines path := by rw [readLines, readLines, hbytes]
  obtain ⟨first, rest, hread, hmark, hstory⟩ := h
  exact ⟨first, rest, hlines.trans hread, hmark, hstory⟩

theorem IsStory.exists_readBytes {f : Format} {story : Story} (h : IsStory w f path story) :
    ∃ bytes, w.readBytes (.ofText path) = .ok bytes :=
  exists_readBytes_of_content (content_eq_story_iff.mpr h)

/-- No story has the empty path, unless the program stands in a file. -/
theorem IsStory.path_ne_nil {f : Format} {story : Story} (h : IsStory w f path story)
    (hhere : w.disk.file? w.here = none) : path ≠ [] := by
  rintro rfl
  obtain ⟨bytes, hbytes⟩ := h.exists_readBytes
  obtain ⟨l, hl, hnode⟩ := locate_of_readBytes hbytes
  obtain rfl : w.here = l := Except.ok.inj (resolve_of_locate hl)
  rw [Disk.file?, hnode] at hhere
  cases hhere

end World

/-! ## Bookmarks of a play -/

namespace Session

variable {σ : Type} {s : Session σ}

theorem saveBookmark_eq_ok {m : Markers} {w after : World} {path : Text} {b : Bookmark}
    (h : s.saveBookmark m w path = (.ok b, after)) :
    s.bookmark = .ok b ∧ w.saveBookmark m path b = (.ok (), after) := by
  unfold saveBookmark at h
  split at h
  · cases h
  · rename_i b' hbookmark
    split at h
    · cases h
    · rename_i w' hsave
      cases h
      exact ⟨hbookmark, hsave⟩

/-- What comes of saving the bookmark of a session is what comes of writing it. -/
theorem saveBookmark_of_bookmark {b : Bookmark} (h : s.bookmark = .ok b) (m : Markers) (w : World)
    (path : Text) : s.saveBookmark m w path =
      ((w.saveBookmark m path b).1.map fun _ => b, (w.saveBookmark m path b).2) := by
  simp only [saveBookmark, h]
  cases hsave : w.saveBookmark m path b with
  | mk result after => cases result <;> rfl

/-- Saving leaves the world as it is or writes one file. -/
theorem saveBookmark_world (s : Session σ) (m : Markers) (w : World) (path : Text) :
    (s.saveBookmark m w path).2 = w ∨
      ∃ bytes, w.writeBytes (.ofText path) bytes = .ok (s.saveBookmark m w path).2 := by
  cases hbookmark : s.bookmark with
  | error e =>
    rw [saveBookmark, hbookmark]
    exact .inl rfl
  | ok b =>
    rw [saveBookmark_of_bookmark hbookmark]
    exact w.writeLines_world path (b.toLines m)

theorem bookmark_of_active {story room : Text} (hsource : s.source? = some story)
    (hroom : s.position = .active room) : s.bookmark = .ok ⟨story, room⟩ := by
  rw [bookmark, hsource]
  simp only [roomId, hroom]

end Session

namespace Situation

variable {σ : Type} (dice : Dice σ) (m : Markers)

/-- An operation leaves the world as it is, or it is a bookmark that is written. -/
theorem perform_world (s : Situation σ) (op : Operation) :
    (s.perform dice m op).2.world = s.world ∨ ∃ path bytes, op = .bookmark path ∧
      s.world.writeBytes (.ofText path) bytes = .ok (s.perform dice m op).2.world := by
  cases op with
  | bookmark path =>
    rcases s.session.saveBookmark_world m s.world path with hworld | ⟨bytes, hwrite⟩
    · exact .inl hworld
    · exact .inr ⟨path, bytes, rfl, hwrite⟩
  | view => exact .inl rfl
  | room => exact .inl rfl
  | roomId => exact .inl rfl
  | advance => exact .inl rfl
  | choose index => exact .inl rfl
  | quit => exact .inl rfl

theorem perform_resolve (s : Situation σ) (op : Operation) (p : Path) :
    (s.perform dice m op).2.world.resolve p = s.world.resolve p := by
  rcases s.perform_world dice m op with hworld | ⟨path, bytes, -, hwrite⟩
  · rw [hworld]
  · exact World.resolve_of_writeBytes hwrite p

/-- A play changes no file but those that its bookmarks are saved in. -/
theorem run_readBytes {q : Path} {bytes : ByteArray} {ops : List Operation} {s : Situation σ}
    (hother : ∀ path, .bookmark path ∈ ops → s.world.resolve (.ofText path) ≠ s.world.resolve q)
    (h : s.world.readBytes q = .ok bytes) :
    (s.run dice m ops).2.world.readBytes q = .ok bytes := by
  induction ops generalizing s with
  | nil => exact h
  | cons op rest ih =>
    rw [run_cons]
    apply ih
    · intro path hpath
      rw [perform_resolve dice, perform_resolve dice]
      exact hother path (List.mem_cons_of_mem _ hpath)
    · rcases s.perform_world dice m op with hworld | ⟨path, _, rfl, hwrite⟩
      · rw [hworld]
        exact h
      · exact World.readBytes_of_writeBytes_of_ne hwrite (hother path List.mem_cons_self) h

end Situation

/-! ## Back to the room -/

/-- A bookmark that is saved wherever a play of a loaded story got to, in another file
than that of the story, leads back to the same story and to the room of the play, even
if the story has no such room.  The path of the story has to fit in a line, and until the
bookmark is saved the file of the story has to stay as it is.  That the program stands in
no file rules out the empty path. -/
theorem load_of_saveBookmark {σ : Type} {dice : Dice σ} {m : Markers} {w : World} {path : Text}
    {loaded : Loaded} (hload : w.load .standard path = .ok loaded)
    (hhere : w.disk.file? w.here = none) (htrim : trim loaded.path = loaded.path)
    (hline : IsLine loaded.path) {luck : σ} {ops : List Operation}
    {answers : List (Except SaveError Answer)} {last : Situation σ}
    (hrun : Situation.run dice m
      ⟨.start loaded.story (some loaded.path) (some loaded.room) luck, w⟩ ops = (answers, last))
    {room : Text} (hroom : last.session.position = .active room)
    (hfile : last.world.readBytes (.ofText loaded.path) = w.readBytes (.ofText loaded.path))
    {target : Text}
    (hother : last.world.resolve (.ofText target) ≠ last.world.resolve (.ofText loaded.path))
    {b : Bookmark} {after : World}
    (hsave : last.session.saveBookmark .standard last.world target = (.ok b, after)) :
    after.load .standard target = .ok ⟨loaded.path, loaded.story, room⟩ := by
  obtain ⟨-, -, hstory, -⟩ := World.exists_chain_of_load hload
  obtain ⟨-, hsource, hnames⟩ := Situation.isLineName_of_run dice m hload
    (s := ⟨.start loaded.story (some loaded.path) (some loaded.room) luck, w⟩) rfl ops
  rw [hrun] at hsource hnames
  obtain ⟨hbookmark, hwrite⟩ := Session.saveBookmark_eq_ok hsave
  obtain rfl : (⟨loaded.path, room⟩ : Bookmark) = b :=
    Except.ok.inj ((Session.bookmark_of_active hsource hroom).symm.trans hbookmark)
  have hpath : IsLineName loaded.path :=
    ⟨hstory.path_ne_nil hhere, trim_eq_self_iff.mp htrim, hline⟩
  have hbytes := World.writeBytes_of_writeLines hwrite
  -- the story is still there, and the new bookmark names it
  have hfound : World.IsStory after .standard loaded.path loaded.story := by
    have hbefore := hstory.of_readBytes hfile
    obtain ⟨bytes, hread⟩ := hbefore.exists_readBytes
    refine hbefore.of_readBytes ?_
    rw [hread]
    exact World.readBytes_of_writeBytes_of_ne hbytes hother hread
  have hnew := World.isBookmark_of_saveBookmark hwrite hpath (hnames room hroom)
  refine World.load_of_isBookmark hnew hfound ?_
  rw [World.resolve_of_writeBytes hbytes, World.resolve_of_writeBytes hbytes]
  exact Ne.symm hother

/-- A play of the cellar's story that saves a bookmark aside and climbs down. -/
def Cellar.climb : List (Except SaveError Answer) × Situation Unit :=
  Situation.run .zero .standard
    ⟨.start story (some "story".toList) (some "hall".toList) (), world⟩
    [.bookmark "aside".toList, .choose 0]

theorem Cellar.climb_readBytes :
    climb.2.world.readBytes (.ofText "story".toList) =
      world.readBytes (.ofText "story".toList) := by
  obtain ⟨bytes, hbytes⟩ := isStory.exists_readBytes
  rw [hbytes]
  apply Situation.run_readBytes _ _ _ hbytes
  intro path hpath
  obtain rfl : path = "aside".toList := by simpa using hpath
  decide

/-- The outer bookmark leads to the hall; once it is saved again in the cellar, it leads
there. -/
theorem load_of_saveBookmark_cellar :
    (Cellar.climb.2.session.saveBookmark .standard Cellar.climb.2.world "outer".toList).2.load
        .standard "outer".toList =
      .ok ⟨"story".toList, Cellar.story, "cellar".toList⟩ := by
  have hrun : Cellar.climb = (Cellar.climb.1, Cellar.climb.2) := rfl
  refine load_of_saveBookmark Cellar.load_outer rfl rfl ?_ hrun rfl Cellar.climb_readBytes ?_ rfl
  · decide
  · decide

end Gamebook
