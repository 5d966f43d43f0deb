import Gamebook.World
set_option autoImplicit false

/-!
# Resolution of paths

A written path is resolved without a look at the disk, and only the null character
can prevent it.  What is read at a path is at the location that the path resolves
to.
-/

namespace Gamebook

/-! ## The characters of a path -/

namespace Path

theorem mem_of_mem_parts {s part : Text} {c : Char} (hpart : part ∈ parts s) (hc : c ∈ part) :
    c ∈ s := by
  induction s generalizing part with
  | nil =>
    rw [parts, List.mem_singleton] at hpart
    exact absurd hc (by simp [hpart])
  | cons d rest ih =>
    unfold parts at hpart
    split at hpart
    · rcases List.mem_cons.mp hpart with rfl | hpart
      · exact absurd hc List.not_mem_nil
      · exact List.mem_cons_of_mem _ (ih hpart hc)
    · split at hpart
      · rw [List.mem_singleton.mp hpart, List.mem_singleton] at hc
        exact hc ▸ List.mem_cons_self
      · rename_i first more hparts
        rcases List.mem_cons.mp hpart with rfl | hpart
        · rcases List.mem_cons.mp hc with rfl | hc
          · exact List.mem_cons_self
          · exact List.mem_cons_of_mem _ (ih (by simp [hparts]) hc)
        · exact List.mem_cons_of_mem _ (ih (by simp [hparts, hpart]) hc)

theorem exists_part_of_mem {s : Text} {c : Char} (h : c ∈ s) (hslash : c ≠ '/') :
    ∃ part ∈ parts s, c ∈ part := by
  induction s with
  | nil => exact absurd h List.not_mem_nil
  | cons d rest ih =>
    unfold parts
    rcases List.mem_cons.mp h with rfl | h
    · rw [if_neg hslash]
      split
      · exact ⟨[c], List.mem_cons_self, List.mem_cons_self⟩
      · rename_i first more _
        exact ⟨c :: first, List.mem_cons_self, List.mem_cons_self⟩
    · obtain ⟨part, hpart, hc⟩ := ih h
      split
      · exact ⟨part, List.mem_cons_of_mem _ hpart, hc⟩
      · split
        · rename_i hnil
          rw [hnil] at hpart
          exact absurd hpart List.not_mem_nil
        · rename_i first more hparts
          rw [hparts] at hpart
          rcases List.mem_cons.mp hpart with rfl | hpart
          · exact ⟨d :: part, List.mem_cons_self, List.mem_cons_of_mem _ hc⟩
          · exact ⟨part, List.mem_cons_of_mem _ hpart, hc⟩

theorem mem_intercalate_iff {names : List Text} {c : Char} (hslash : c ≠ '/') :
    c ∈ ['/'].intercalate names ↔ ∃ name ∈ names, c ∈ name := by
  induction names with
  | nil => simp [List.intercalate]
  | cons name rest ih =>
    cases rest with
    | nil => simp [List.intercalate]
    | cons next more =>
      have hstep : ['/'].intercalate (name :: next :: more) =
          name ++ '/' :: ['/'].intercalate (next :: more) := by
        simp [List.intercalate, List.intersperse]
      rw [hstep, List.mem_append, List.mem_cons, ih]
      constructor
      · intro h
        rcases h with hc | hc | ⟨part, hpart, hc⟩
        · exact ⟨name, List.mem_cons_self, hc⟩
        · exact absurd hc hslash
        · exact ⟨part, List.mem_cons_of_mem _ hpart, hc⟩
      · intro h
        obtain ⟨part, hpart, hc⟩ := h
        rcases List.mem_cons.mp hpart with rfl | hpart
        · exact .inl hc
        · exact .inr (.inr ⟨part, hpart, hc⟩)

theorem null_not_mem_rootOf (s : Text) : '\x00' ∉ rootOf s := by
  unfold rootOf
  split <;> decide

/-- A path has the null character exactly if its written form has it. -/
theorem null_mem_toText_ofText (s : Text) : '\x00' ∈ (ofText s).toText ↔ '\x00' ∈ s := by
  have hnames : (∃ name ∈ (ofText s).names, '\x00' ∈ name) ↔ '\x00' ∈ s := by
    constructor
    · intro h
      obtain ⟨name, hname, hc⟩ := h
      exact mem_of_mem_parts (List.mem_filter.mp hname).1 hc
    · intro h
      obtain ⟨part, hpart, hc⟩ := exists_part_of_mem h (by decide)
      refine ⟨part, List.mem_filter.mpr ⟨hpart, ?_⟩, hc⟩
      have hne : part ≠ [] := List.ne_nil_of_mem hc
      have hdot : part ≠ ['.'] := by
        rintro rfl
        exact absurd hc (by decide)
      simp [hne, hdot]
  rw [← hnames, toText]
  split
  · rename_i hempty
    simp [hempty.2]
  · rw [List.mem_append, mem_intercalate_iff (by decide)]
    exact or_iff_right (null_not_mem_rootOf s)

end Path

/-! ## Resolving -/

namespace World

variable {w : World}

theorem resolve_of_null {path : Text} (h : '\x00' ∈ path) :
    w.resolve (.ofText path) = .error .embeddedNull := by
  have hcontains := List.contains_iff_mem.mpr ((Path.null_mem_toText_ofText path).mpr h)
  rw [resolve, if_pos hcontains]

theorem resolve_of_no_null {path : Text} (h : '\x00' ∉ path) :
    w.resolve (.ofText path) =
      .ok (Disk.follow (w.start (.ofText path)) (Path.ofText path).names) := by
  have hcontains : ¬ (Path.ofText path).toText.contains '\x00' = true := fun hc =>
    h ((Path.null_mem_toText_ofText path).mp (List.contains_iff_mem.mp hc))
  rw [resolve, if_neg hcontains]

theorem null_iff_resolve_error {path : Text} :
    '\x00' ∈ path ↔ ∃ e, w.resolve (.ofText path) = .error e := by
  by_cases h : '\x00' ∈ path
  · exact ⟨fun _ => ⟨_, resolve_of_null h⟩, fun _ => h⟩
  · simp [h, resolve_of_no_null h]

/-- A walk looks no null character up. -/
theorem walk_ne_embeddedNull (names : List Text) (start : Location) :
    w.disk.walk start names ≠ .error .embeddedNull := by
  induction names generalizing start with
  | nil => simp [Disk.walk]
  | cons name rest ih =>
    unfold Disk.walk
    split
    · simp
    · simp
    · split
      · exact ih _
      · split
        · simp
        · exact ih _

theorem locate_eq_embeddedNull_iff {path : Text} :
    w.locate (.ofText path) = .error .embeddedNull ↔ '\x00' ∈ path := by
  rw [← Path.null_mem_toText_ofText, ← List.contains_iff_mem, locate]
  split
  · rename_i hnull
    exact iff_of_true rfl hnull
  · rename_i hnull
    refine iff_of_false ?_ hnull
    split
    · simp
    · exact walk_ne_embeddedNull _ _

/-- A path that can be located resolves to its location. -/
theorem resolve_of_locate {p : Path} {l : Location} (h : w.locate p = .ok l) :
    w.resolve p = .ok l := by
  unfold locate at h
  split at h
  · simp at h
  · rename_i hnull
    split at h
    · simp at h
    · rw [resolve, if_neg hnull, ← Disk.eq_follow_of_walk h]

/-- A file is read at the location that its path resolves to. -/
theorem locate_of_readBytes {p : Path} {bytes : ByteArray} (h : w.readBytes p = .ok bytes) :
    ∃ l, w.locate p = .ok l ∧ w.disk.node? l = some (.file bytes) := by
  rw [readBytes, node] at h
  cases hl : w.locate p with
  | error e => simp [hl] at h
  | ok l =>
    refine ⟨l, rfl, ?_⟩
    cases hnode : w.disk.node? l with
    | none => simp [hl, hnode] at h
    | some found =>
      cases found with
      | directory => simp [hl, hnode] at h
      | file bytes' =>
        have heq : bytes' = bytes := by simpa [hl, hnode] using h
        rw [heq]

theorem readBytes_of_locate {p : Path} {l : Location} {bytes : ByteArray}
    (hl : w.locate p = .ok l) (hnode : w.disk.node? l = some (.file bytes)) :
    w.readBytes p = .ok bytes := by
  simp [readBytes, node, hl, hnode]

end World

end Gamebook
