import Gamebook.Proofs.World.Directories
import Gamebook.Settings
set_option autoImplicit false

/-!
# Files of settings

Settings are kept in a file, the directories around which are made first where they are
missing.  This succeeds exactly where the disk can take the file.  Whether it succeeds or not,
it touches no other file; and settings that are there already can be kept again, which
changes nothing at all.
-/

namespace Gamebook

theorem Disk.put_put (d : Disk) (l : Location) (node : Node) :
    (d.put l node).put l node = d.put l node := by
  have hentries (entries : List (Location × Node)) :
      putIn l node (putIn l node entries) = putIn l node entries := by
    induction entries with
    | nil => simp [putIn]
    | cons e rest ih =>
      by_cases hl : e.1 = l
      · simp [putIn, hl]
      · simp only [putIn, if_neg hl, ih]
  exact congrArg (Disk.mk · d.strays?) (hentries d.entries)

namespace World

variable {w mid after : World} {p : Path} {s : Settings}

/-- A file can be written at a path when the directories around it may be made first: the disk
takes the path and its names, no file is met on the way, and no directory is where the file is to
be, nor would one be made there. -/
structure Writable (w : World) (p : Path) : Prop where
  clean : '\x00' ∉ p.toText
  fits : w.disk.byteSize p.toText < pathLimit
  short : ∀ name ∈ p.names, w.disk.isTooLong name = false
  passable : ∀ l ∈ Disk.trail (w.start p) p.names.dropLast, w.disk.file? l = none
  apart : Disk.follow (w.start p) p.names ∉ Disk.trail (w.start p) p.names.dropLast
  free : w.disk.node? (Disk.follow (w.start p) p.names) ≠ some .directory

theorem Writable.exists_concat (h : w.Writable p) :
    ∃ root names name, p = ⟨root, names ++ [name]⟩ := by
  obtain ⟨root, names⟩ := p
  rcases List.eq_nil_or_concat names with rfl | ⟨front, name, rfl⟩
  · exact absurd (Disk.follow_mem_trail _ []) h.apart
  · exact ⟨root, front, name, by simp⟩

theorem saveSettings_eq_ok_iff {s : Settings} : w.saveSettings p s = (.ok (), after) ↔
    ∃ mid, w.ensureDirectory p.parent = (.ok (), mid) ∧
      mid.writeBytes p (Text.toBytes s.toText) = .ok after := by
  unfold saveSettings
  cases hmid : w.ensureDirectory p.parent with
  | mk result mid =>
    cases result with
    | error e => simp
    | ok _ =>
      cases hwrite : mid.writeBytes p (Text.toBytes s.toText) with
      | error e => simp [hwrite]
      | ok now => simp [hwrite]

/-- Settings are kept at the paths where a file can be written, and only there. -/
theorem exists_saveSettings_iff {s : Settings} :
    (∃ after, w.saveSettings p s = (.ok (), after)) ↔ w.Writable p := by
  simp only [saveSettings_eq_ok_iff]
  constructor
  · rintro ⟨after, mid, hmid, hwrite⟩
    have hfurnishes := furnishes_of_ensureDirectory hmid
    obtain ⟨l, hl, hnode, -⟩ := writeBytes_eq_ok_iff.mp hwrite
    obtain ⟨hclean, hfits, hwalk⟩ := locate_eq_ok_iff.mp hl
    obtain ⟨root, names⟩ := p
    rcases List.eq_nil_or_concat names with rfl | ⟨front, name, rfl⟩
    · -- a path without names is the directory that has been ensured
      obtain ⟨l', hl', hdirectory⟩ := node_eq_ok_iff.mp (node_of_ensureDirectory hmid)
      obtain rfl : l = l' := Except.ok.inj (hl.symm.trans hl')
      exact absurd hdirectory hnode
    · rw [List.concat_eq_append] at hwalk hclean hfits hl ⊢
      rw [hfurnishes.start] at hwalk
      rw [hfurnishes.byteSize] at hfits
      obtain ⟨hdirectories, hshort, rfl⟩ := Disk.walk_eq_ok_iff.mp hwalk
      simp only [hfurnishes.isTooLong] at hshort
      refine ⟨hclean, hfits, hshort, ?_, ?_, ?_⟩
      · intro l hl
        rw [List.dropLast_concat] at hl
        rw [← hfurnishes.file?, Disk.file?, hdirectories l hl]
      · rw [List.dropLast_concat]
        exact fun hmem => hnode (hdirectories _ hmem)
      · exact fun hdirectory => hnode (hfurnishes.directory hdirectory)
  · intro h
    obtain ⟨root, names, name, rfl⟩ := h.exists_concat
    have hpassable := h.passable
    have hapart := h.apart
    simp only [List.dropLast_concat] at hpassable hapart
    have hparent : Path.parent ⟨root, names ++ [name]⟩ = ⟨root, names⟩ := by simp [Path.parent]
    obtain ⟨mid, hmid, hdirectories, hkept⟩ := exists_ensureDirectory (Path.clean_around h.clean)
      (Path.fits_around (by decide) h.fits)
      (fun n hn => h.short n (List.mem_append_left _ hn)) hpassable
    have hfurnishes := furnishes_of_ensureDirectory hmid
    have hfits := h.fits
    have hshort := h.short
    rw [← hfurnishes.byteSize] at hfits
    simp only [← hfurnishes.isTooLong] at hshort
    have hl : mid.locate ⟨root, names ++ [name]⟩ =
        .ok (Disk.follow (w.start ⟨root, names ++ [name]⟩) (names ++ [name])) := by
      refine locate_eq_ok_iff.mpr ⟨h.clean, hfits, ?_⟩
      rw [hfurnishes.start]
      exact Disk.walk_eq_ok_iff.mpr ⟨hdirectories, hshort, rfl⟩
    rw [hparent]
    refine ⟨_, mid, hmid, writeBytes_eq_ok_iff.mpr ⟨_, hl, ?_, rfl⟩⟩
    rw [hkept _ hapart]
    exact h.free

/-- On an empty disk a file is written on a shelf, which is made first, but not through itself. -/
example :
    let w : World := ⟨{ entries := [] }, [], default, [], default, none⟩
    (w.saveSettings (.ofText "shelf/settings".toList) .standard).1.isOk = true ∧
      (w.saveSettings (.ofText "shelf/../shelf".toList) .standard).1.isOk = false := by
  decide +kernel

/-- Settings that have been kept are read back from their text. -/
theorem loadSettings_of_saveSettings (h : w.saveSettings p s = (.ok (), after)) :
    after.loadSettings p = .ofText s.toText := by
  obtain ⟨mid, -, hwrite⟩ := saveSettings_eq_ok_iff.mp h
  simp only [loadSettings, readBytes_of_writeBytes hwrite, Settings.ofBytes, Text.ofBytes?_toBytes]

/-- Settings that have been kept are kept again as they are. -/
theorem saveSettings_of_saveSettings (h : w.saveSettings p s = (.ok (), after)) :
    after.saveSettings p s = (.ok (), after) := by
  obtain ⟨mid, hmid, hwrite⟩ := saveSettings_eq_ok_iff.mp h
  have hparent : after.node p.parent = .ok .directory :=
    node_of_writeBytes hwrite (node_of_ensureDirectory hmid)
  refine saveSettings_eq_ok_iff.mpr ⟨after, ensureDirectory_of_node hparent, ?_⟩
  obtain ⟨l, hl, hnode, hafter⟩ := writeBytes_eq_ok_iff.mp hwrite
  refine writeBytes_eq_ok_iff.mpr ⟨l, locate_of_writeBytes hwrite hl, ?_, ?_⟩
  · rw [hafter]
    simp [Disk.node?_put]
  · rw [hafter]
    simp only [Disk.put_put]

end World

end Gamebook
