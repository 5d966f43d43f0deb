import Gamebook.Bookmark
import Gamebook.Proofs.World.Write
import Mathlib.Data.List.TakeWhile
set_option autoImplicit false

/-!
# Lines that are written

Lines are written in two steps: the file is opened, which empties it, and then its text is
encoded.  So a text that cannot be encoded leaves an empty file behind, and every other failure
leaves everything as it was.  Here it is said once what can come of writing.
-/

namespace Gamebook

open Text

/-! ## Texts that can be encoded -/

namespace Disk

variable {d : Disk} {s : Text} {c : Char} {ls : List Text}

/-- No character of the text stands for a stray byte. -/
def Encodes (d : Disk) (s : Text) : Prop := ∀ c ∈ s, d.isStray c = false

/-- Only characters for private use stand for stray bytes. -/
theorem isStray_of_lt (h : c.toNat < 0x100000) : d.isStray c = false := by
  rw [isStray]
  cases d.strays? with
  | none => rfl
  | some strays =>
    have hbase : ¬ strays.base ≤ c.toNat := fun hle =>
      Nat.not_le_of_lt h (Nat.le_trans strays.private_use hle)
    simp [Strays.stands, hbase]

theorem isStray_of_none (h : d.strays? = none) (c : Char) : d.isStray c = false := by
  rw [isStray, h]
  rfl

/-- Without stray bytes every text can be encoded. -/
theorem encodes_of_none (h : d.strays? = none) (s : Text) : d.Encodes s :=
  fun c _ => isStray_of_none h c

theorem unencodable?_eq_none_iff : d.unencodable? s = none ↔ d.Encodes s := by
  have hrest : (s.dropWhile fun c => !d.isStray c) = [] ↔ d.Encodes s := by
    simp [List.dropWhile_eq_nil_iff, Encodes]
  unfold unencodable?
  cases hstrays : d.strays? with
  | none => simp [encodes_of_none hstrays]
  | some strays =>
    rw [← hrest]
    cases s.dropWhile fun c => !d.isStray c <;> simp

/-- Lines can be encoded together if each of them can. -/
theorem encodes_unlines_iff :
    d.Encodes (unlines ls) ↔ ∀ line ∈ ls, d.Encodes line := by
  have hbreak : d.isStray '\n' = false := isStray_of_lt (by decide)
  constructor
  · intro h line hline c hc
    exact h c (List.mem_flatMap.mpr ⟨line, hline, List.mem_append_left _ hc⟩)
  · intro h c hc
    obtain ⟨line, hline, hmem⟩ := List.mem_flatMap.mp hc
    rcases List.mem_append.mp hmem with hmem | hmem
    · exact h line hline c hmem
    · exact List.mem_singleton.mp hmem ▸ hbreak

theorem unencodable?_unlines_eq_none_iff :
    d.unencodable? (unlines ls) = none ↔ ∀ line ∈ ls, d.Encodes line :=
  unencodable?_eq_none_iff.trans encodes_unlines_iff

/-- What a file holds once it has been opened for lines: their text, or nothing if that cannot be
encoded. -/
def written (d : Disk) (ls : List Text) : ByteArray :=
  match d.unencodable? (unlines ls) with
  | none => toBytes (unlines ls)
  | some _ => .empty

end Disk

/-! ## Files that the disk takes -/

namespace World

variable {w after : World} {path : Text} {bytes : ByteArray} {ls : List Text}

/-- The disk takes a file at the path: existing directories lead there, and no directory is
there. -/
def Takes (w : World) (path : Text) : Prop :=
  ∃ l, w.locate (.ofText path) = .ok l ∧ w.disk.node? l ≠ some .directory

theorem Takes.exists_writeBytes (h : w.Takes path) (bytes : ByteArray) :
    ∃ after, w.writeBytes (.ofText path) bytes = .ok after := by
  obtain ⟨l, hl, hnode⟩ := h
  exact ⟨_, writeBytes_eq_ok_iff.mpr ⟨l, hl, hnode, rfl⟩⟩

theorem writeBytes_eq_embeddedNull_iff :
    w.writeBytes (.ofText path) bytes = .error .embeddedNull ↔ '\x00' ∈ path := by
  rw [← locate_eq_embeddedNull_iff (w := w), writeBytes]
  cases w.locate (.ofText path) with
  | error e => simp
  | ok l =>
    simp only [reduceCtorEq, iff_false]
    split <;> simp

/-- The disk takes no path with the null character in it. -/
theorem Takes.clean (h : w.Takes path) : '\x00' ∉ path := by
  intro hnull
  obtain ⟨after, hwrite⟩ := h.exists_writeBytes .empty
  cases hwrite.symm.trans (writeBytes_eq_embeddedNull_iff.mpr hnull)

/-! ## What comes of writing -/

/-- What can come of writing lines to a path. -/
inductive Writes (w : World) (path : Text) (ls : List Text) :
    Except SaveError Unit × World → Prop where
  /-- no disk is asked for the path -/
  | null (null : '\x00' ∈ path) :
      Writes w path ls (.error (.fault (.disk .embeddedNull path)), w)
  /-- the disk does not take the file -/
  | refused (clean : '\x00' ∉ path) (refused : ¬ w.Takes path) :
      Writes w path ls (.error (.unwritable path), w)
  /-- the file is emptied, and then its text cannot be encoded -/
  | emptied {found : Unencodable} {after : World}
      (strays : w.disk.unencodable? (unlines ls) = some found)
      (emptied : w.writeBytes (.ofText path) .empty = .ok after) :
      Writes w path ls (.error (.fault (.unencodable found)), after)
  /-- the lines are in the file -/
  | written {after : World} (encodes : w.disk.Encodes (unlines ls))
      (written : w.writeBytes (.ofText path) (toBytes (unlines ls)) = .ok after) :
      Writes w path ls (.ok (), after)

/-- A path that the disk refuses is told, unless the disk has not been asked. -/
theorem Writes.of_refusal {e : DiskError}
    (h : w.writeBytes (.ofText path) bytes = .error e) :
    w.Writes path ls (.error (.ofDisk path e), w) := by
  by_cases hnull : '\x00' ∈ path
  · obtain rfl : e = .embeddedNull :=
      Except.error.inj (h.symm.trans (writeBytes_eq_embeddedNull_iff.mpr hnull))
    exact .null hnull
  · have hrefused : ¬ w.Takes path := by
      intro htakes
      obtain ⟨after, hwrite⟩ := htakes.exists_writeBytes bytes
      cases h.symm.trans hwrite
    have htold : SaveError.ofDisk path e = .unwritable path := by
      cases e with
      | embeddedNull => exact absurd (writeBytes_eq_embeddedNull_iff.mp h) hnull
      | _ => rfl
    rw [htold]
    exact .refused hnull hrefused

/-- Nothing else comes of writing lines. -/
theorem writes_writeLines (w : World) (path : Text) (ls : List Text) :
    w.Writes path ls (w.writeLines path ls) := by
  rw [writeLines]
  cases hstrays : w.disk.unencodable? (unlines ls) with
  | none =>
    have hencodes := Disk.unencodable?_eq_none_iff.mp hstrays
    dsimp only
    split
    · exact .written hencodes ‹_›
    · exact .of_refusal ‹_›
  | some found =>
    dsimp only
    split
    · exact .emptied hstrays ‹_›
    · exact .of_refusal ‹_›

/-- Lines that can be encoded are written where the disk takes a file. -/
theorem Takes.exists_writeLines (h : w.Takes path)
    (hls : ∀ line ∈ ls, w.disk.Encodes line) :
    ∃ after, w.writeLines path ls = (.ok (), after) := by
  obtain ⟨after, hwrite⟩ := h.exists_writeBytes (toBytes (unlines ls))
  refine ⟨after, ?_⟩
  rw [writeLines]
  simp only [Disk.unencodable?_unlines_eq_none_iff.mpr hls, hwrite]

theorem writeBytes_of_writeLines (h : w.writeLines path ls = (.ok (), after)) :
    w.writeBytes (.ofText path) (toBytes (unlines ls)) = .ok after := by
  have hwrites := w.writes_writeLines path ls
  rw [h] at hwrites
  cases hwrites with
  | written _ hwrite => exact hwrite

/-- Whatever comes of saving a bookmark, it says nothing of a session. -/
theorem saveBookmark_ne_session (w : World) (m : Markers) (path : Text) (b : Bookmark)
    (e : SessionError) : (w.saveBookmark m path b).1 ≠ .error (.session e) := by
  have hwrites := w.writes_writeLines path (b.toLines m)
  rw [saveBookmark]
  generalize w.writeLines path (b.toLines m) = outcome at hwrites
  cases hwrites <;> simp

/-- Writing lines leaves the world as it is, or it has changed one file. -/
theorem writeLines_world (w : World) (path : Text) (ls : List Text) :
    (w.writeLines path ls).2 = w ∨
      ∃ bytes, w.writeBytes (.ofText path) bytes = .ok (w.writeLines path ls).2 := by
  have hwrites := w.writes_writeLines path ls
  generalize w.writeLines path ls = outcome at hwrites
  cases hwrites with
  | null => exact .inl rfl
  | refused => exact .inl rfl
  | emptied _ hwrite => exact .inr ⟨_, hwrite⟩
  | written _ hwrite => exact .inr ⟨_, hwrite⟩

end World

end Gamebook
