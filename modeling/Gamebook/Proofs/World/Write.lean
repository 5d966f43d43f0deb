import Gamebook.Proofs.World.Resolution
set_option autoImplicit false

/-!
# Files that are written

Writing a file puts its bytes at one location where no directory is, and nothing
changes anywhere else: every path that leads through existing directories still leads
to the same location, and every other file is read as before.
-/

namespace Gamebook

/-! ## Disks -/

namespace Disk

theorem find?_putIn (l : Location) (node : Node) (entries : List (Location × Node)) :
    (putIn l node entries).find? (·.1 = l) = some (l, node) := by
  induction entries with
  | nil => simp [putIn]
  | cons e rest ih =>
    unfold putIn
    by_cases hl : e.1 = l
    · simp [if_pos hl]
    · rw [if_neg hl, List.find?_cons_of_neg (by simpa using hl), ih]

theorem find?_putIn_of_ne {l other : Location} (h : other ≠ l) (node : Node)
    (entries : List (Location × Node)) :
    (putIn l node entries).find? (·.1 = other) = entries.find? (·.1 = other) := by
  induction entries with
  | nil => simp [putIn, Ne.symm h]
  | cons e rest ih =>
    unfold putIn
    by_cases hl : e.1 = l
    · have hother : ¬ e.1 = other := fun heq => h (heq.symm.trans hl)
      rw [if_pos hl, List.find?_cons_of_neg (by simpa using Ne.symm h),
        List.find?_cons_of_neg (by simpa using hother)]
    · rw [if_neg hl, List.find?_cons, List.find?_cons, ih]

/-- What is put at a location is there. -/
theorem node?_put (d : Disk) (l : Location) (node : Node) : (d.put l node).node? l = some node := by
  rw [node?, put, find?_putIn]

/-- Every other location keeps what is there. -/
theorem node?_put_of_ne {l other : Location} (h : other ≠ l) (d : Disk) (node : Node) :
    (d.put l node).node? other = d.node? other := by
  rw [node?, node?, put, find?_putIn_of_ne h]

/-- Which characters stand for stray bytes says how long texts are on the disk. -/
theorem byteSize_congr {d other : Disk} (h : other.strays? = d.strays?) (s : Text) :
    other.byteSize s = d.byteSize s := by
  induction s with
  | nil => rfl
  | cons c rest ih => rw [byteSize, byteSize, ih, isStray, isStray, h]

theorem isTooLong_congr {d other : Disk} (h : other.strays? = d.strays?) (name : Text) :
    other.isTooLong name = d.isTooLong name := by rw [isTooLong, isTooLong, byteSize_congr h]

@[simp] theorem strays?_put (d : Disk) (l : Location) (node : Node) :
    (d.put l node).strays? = d.strays? := rfl

@[simp] theorem byteSize_put (d : Disk) (l : Location) (node : Node) (s : Text) :
    (d.put l node).byteSize s = d.byteSize s :=
  byteSize_congr (strays?_put d l node) s

@[simp] theorem isTooLong_put (d : Disk) (l : Location) (node : Node) (name : Text) :
    (d.put l node).isTooLong name = d.isTooLong name :=
  isTooLong_congr (strays?_put d l node) name

/-- A walk meets directories only, so that it is the same after a file has been put
where no directory is. -/
theorem walk_put {d : Disk} {l start last : Location} {names : List Text} (node : Node)
    (hl : d.node? l ≠ some .directory) (h : d.walk start names = .ok last) :
    (d.put l node).walk start names = .ok last := by
  induction names generalizing start with
  | nil => exact h
  | cons name rest ih =>
    rw [walk] at h ⊢
    split at h
    · cases h
    · cases h
    · rename_i hstart
      have hne : start ≠ l := by
        rintro rfl
        exact hl hstart
      simp only [node?_put_of_ne hne, hstart]
      split at h
      · rename_i hup
        rw [if_pos hup]
        exact ih h
      · rename_i hup
        split at h
        · cases h
        · rename_i hlong
          rw [if_neg hup, isTooLong_put, if_neg hlong]
          exact ih h

end Disk

/-! ## Worlds -/

namespace World

variable {w after : World} {p q : Path} {bytes : ByteArray}

/-- Writing succeeds at the location of the path, where no directory is, and changes
the disk there. -/
theorem writeBytes_eq_ok_iff : w.writeBytes p bytes = .ok after ↔
    ∃ l, w.locate p = .ok l ∧ w.disk.node? l ≠ some .directory ∧
      after = { w with disk := w.disk.put l (.file bytes) } := by
  unfold writeBytes
  constructor
  · intro h
    split at h
    · cases h
    · rename_i l hl
      split at h
      · cases h
      · rename_i hnode
        cases h
        exact ⟨l, hl, hnode, rfl⟩
  · intro h
    obtain ⟨l, hl, hnode, rfl⟩ := h
    simp only [hl]

theorem locate_of_writeBytes (h : w.writeBytes p bytes = .ok after) {l : Location}
    (hq : w.locate q = .ok l) : after.locate q = .ok l := by
  obtain ⟨target, -, hnode, rfl⟩ := writeBytes_eq_ok_iff.mp h
  rw [locate] at hq ⊢
  split at hq
  · cases hq
  · rename_i hnull
    split at hq
    · cases hq
    · rename_i hlong
      rw [if_neg hnull, Disk.byteSize_put, if_neg hlong]
      exact Disk.walk_put (.file bytes) hnode hq

/-- Paths resolve as before. -/
theorem resolve_of_writeBytes (h : w.writeBytes p bytes = .ok after) (q : Path) :
    after.resolve q = w.resolve q := by
  obtain ⟨l, -, -, rfl⟩ := writeBytes_eq_ok_iff.mp h
  rfl

/-- What is written is read. -/
theorem readBytes_of_writeBytes (h : w.writeBytes p bytes = .ok after) :
    after.readBytes p = .ok bytes := by
  obtain ⟨l, hl, -, hafter⟩ := writeBytes_eq_ok_iff.mp h
  refine readBytes_of_locate (locate_of_writeBytes h hl) ?_
  rw [hafter]
  exact Disk.node?_put _ _ _

/-- Every other file is read as before. -/
theorem readBytes_of_writeBytes_of_ne (h : w.writeBytes p bytes = .ok after)
    (hne : w.resolve p ≠ w.resolve q) {found : ByteArray} (hq : w.readBytes q = .ok found) :
    after.readBytes q = .ok found := by
  obtain ⟨l, hl, -, hafter⟩ := writeBytes_eq_ok_iff.mp h
  obtain ⟨other, hother, hfile⟩ := locate_of_readBytes hq
  have hlocation : other ≠ l := by
    rintro rfl
    exact hne ((resolve_of_locate hl).trans (resolve_of_locate hother).symm)
  refine readBytes_of_locate (locate_of_writeBytes h hother) ?_
  rw [hafter]
  exact (Disk.node?_put_of_ne hlocation _ _).trans hfile

end World

end Gamebook
