import Gamebook.Proofs.World.Write
set_option autoImplicit false

/-!
# Directories that are made

A directory is made where nothing is, and directories around it with it.  No file changes,
and every path leads where it led before.  A directory can be made at a path exactly if no
file is met on the way and the disk takes the names.
-/

namespace Gamebook

/-! ## Disks -/

namespace Disk

variable {d : Disk} {start : Location} {front names : List Text} {name : Text}

/-- The trail of one more name goes on to where it leads. -/
theorem trail_concat :
    trail start (front ++ [name]) = trail start front ++ [follow start (front ++ [name])] := by
  induction front generalizing start with
  | nil => rfl
  | cons first rest ih => exact congrArg (start :: ·) ih

/-- A trail ends where its names lead. -/
theorem follow_mem_trail (start : Location) (names : List Text) :
    follow start names ∈ trail start names := by
  induction names generalizing start with
  | nil => exact List.mem_singleton_self _
  | cons name rest ih => exact List.mem_cons_of_mem _ (ih _)

/-- The name of the directory around is short, whatever its characters stand for. -/
theorem isTooLong_up (d : Disk) : d.isTooLong up = false := by
  have hdot : '.'.utf8Size = 1 := rfl
  simp [isTooLong, up, byteSize, hdot]

/-- A walk passes directories only, with names that are not too long. -/
theorem walk_eq_ok_iff {l : Location} : d.walk start (names ++ [name]) = .ok l ↔
    (∀ l ∈ trail start names, d.node? l = some .directory) ∧
      (∀ n ∈ names ++ [name], d.isTooLong n = false) ∧ l = follow start (names ++ [name]) := by
  induction names generalizing start with
  | nil =>
    simp only [List.nil_append, walk, trail, follow, List.mem_singleton, forall_eq]
    cases hnode : d.node? start with
    | none => simp
    | some node =>
      cases node with
      | file bytes => simp
      | directory =>
        by_cases hup : name = up
        · simp [hup, isTooLong_up, eq_comm (a := l)]
        · cases hlong : d.isTooLong name <;> simp [hup, eq_comm (a := l)]
  | cons first rest ih =>
    simp only [List.cons_append, walk, trail, follow, List.mem_cons, forall_eq_or_imp]
    cases hnode : d.node? start with
    | none => simp
    | some node =>
      cases node with
      | file bytes => simp
      | directory =>
        by_cases hup : first = up
        · simp only [hup, if_true, ih, isTooLong_up, true_and]
        · cases hlong : d.isTooLong first with
          | false => simp only [hup, if_false, Bool.false_eq_true, ih, true_and]
          | true => simp [hup]

/-- A walk that meets no file, with names that are not too long, either succeeds or finds that
something is missing. -/
theorem eq_notFound_of_walk {e : DiskError} (hfiles : ∀ l ∈ trail start names, d.file? l = none)
    (hshort : ∀ n ∈ names, d.isTooLong n = false) (h : d.walk start names = .error e) :
    e = .notFound := by
  induction names generalizing start with
  | nil => cases h
  | cons first rest ih =>
    obtain ⟨hstart, hrest⟩ := List.forall_mem_cons.mp hfiles
    obtain ⟨hfirst, hnext⟩ := List.forall_mem_cons.mp hshort
    rw [walk] at h
    split at h
    · exact (Except.error.inj h).symm
    · rename_i bytes hfile
      rw [file?, hfile] at hstart
      cases hstart
    · split at h
      · rename_i hup
        rw [if_pos hup] at hrest
        exact ih hrest hnext h
      · rename_i hup
        rw [if_neg hup] at hrest
        simp only [hfirst, Bool.false_eq_true, if_false] at h
        exact ih hrest hnext h

end Disk

/-! ## Paths to the directories around -/

theorem Disk.byteSize_append (d : Disk) (s t : Text) :
    d.byteSize (s ++ t) = d.byteSize s + d.byteSize t := by
  induction s with
  | nil => exact (Nat.zero_add _).symm
  | cons c rest ih => rw [List.cons_append, Disk.byteSize, Disk.byteSize, ih, Nat.add_assoc]

namespace Path

variable {root name : Text} {front : List Text}

theorem exists_intercalate_concat (front : List Text) (name : Text) :
    ∃ tail, ['/'].intercalate (front ++ [name]) = ['/'].intercalate front ++ tail := by
  induction front with
  | nil => exact ⟨_, rfl⟩
  | cons first rest ih =>
    cases rest with
    | nil => exact ⟨'/' :: name, by simp [List.intercalate]⟩
    | cons next more =>
      obtain ⟨tail, htail⟩ := ih
      refine ⟨tail, ?_⟩
      simp only [List.cons_append, List.intercalate_cons_cons] at htail ⊢
      rw [htail]
      simp only [List.append_assoc]

/-- The path of the directory around is written with fewer characters, unless it is a dot. -/
theorem toText_around (root name : Text) (front : List Text) :
    (Path.mk root front).toText = ['.'] ∨
      ∃ tail, (Path.mk root (front ++ [name])).toText = (Path.mk root front).toText ++ tail := by
  unfold toText
  split
  · exact .inl rfl
  · obtain ⟨tail, htail⟩ := exists_intercalate_concat front name
    refine .inr ⟨tail, ?_⟩
    rw [if_neg (by simp), htail, List.append_assoc]

theorem clean_around (h : '\x00' ∉ (Path.mk root (front ++ [name])).toText) :
    '\x00' ∉ (Path.mk root front).toText := by
  rcases toText_around root name front with hdot | ⟨tail, htail⟩
  · rw [hdot]
    decide
  · rw [htail, List.mem_append, not_or] at h
    exact h.1

theorem fits_around {d : Disk} {limit : Nat} (hlimit : 1 < limit)
    (h : d.byteSize (Path.mk root (front ++ [name])).toText < limit) :
    d.byteSize (Path.mk root front).toText < limit := by
  rcases toText_around root name front with hdot | ⟨tail, htail⟩
  · have hsize : d.byteSize ['.'] = 1 := by
      have hdot : '.'.utf8Size = 1 := rfl
      simp [Disk.byteSize, hdot]
    rwa [hdot, hsize]
  · rw [htail, Disk.byteSize_append] at h
    omega

end Path

/-! ## Worlds with more directories -/

namespace World

variable {w mid after : World} {p : Path} {l : Location}

/-- A world is another one but for directories where nothing was. -/
structure Furnishes (w after : World) : Prop where
  surroundings : after = { w with disk := after.disk }
  strays? : after.disk.strays? = w.disk.strays?
  node? : ∀ l, after.disk.node? l = w.disk.node? l ∨
    (w.disk.node? l = none ∧ after.disk.node? l = some .directory)

namespace Furnishes

theorem refl (w : World) : Furnishes w w := ⟨rfl, rfl, fun _ => .inl rfl⟩

theorem trans (h : Furnishes w mid) (hmore : Furnishes mid after) : Furnishes w after := by
  refine ⟨?_, hmore.strays?.trans h.strays?, fun l => ?_⟩
  · rw [hmore.surroundings, h.surroundings]
  · rcases hmore.node? l with hsame | ⟨hnone, hnew⟩
    · rw [hsame]
      exact h.node? l
    · refine .inr ⟨?_, hnew⟩
      rcases h.node? l with hsame | ⟨hnone', -⟩
      · rw [← hsame, hnone]
      · exact hnone'

/-- No file is touched. -/
theorem file? (h : Furnishes w after) (l : Location) : after.disk.file? l = w.disk.file? l := by
  rcases h.node? l with hsame | ⟨hnone, hnew⟩
  · rw [Disk.file?, Disk.file?, hsame]
  · rw [Disk.file?, Disk.file?, hnone, hnew]

theorem directory (h : Furnishes w after) (hl : w.disk.node? l = some .directory) :
    after.disk.node? l = some .directory := by
  rcases h.node? l with hsame | ⟨-, hnew⟩
  · rw [hsame, hl]
  · exact hnew

theorem byteSize (h : Furnishes w after) (s : Text) :
    after.disk.byteSize s = w.disk.byteSize s := Disk.byteSize_congr h.strays? s

theorem isTooLong (h : Furnishes w after) (name : Text) :
    after.disk.isTooLong name = w.disk.isTooLong name := Disk.isTooLong_congr h.strays? name

theorem start (h : Furnishes w after) (p : Path) : after.start p = w.start p := by
  rw [h.surroundings]
  rfl

theorem resolve (h : Furnishes w after) (p : Path) : after.resolve p = w.resolve p := by
  rw [h.surroundings]
  rfl

end Furnishes

/-! ## Directories at paths -/

theorem makeDirectory_eq_ok_iff : w.makeDirectory p = .ok after ↔
    ∃ l, w.locate p = .ok l ∧ w.disk.node? l = none ∧
      after = { w with disk := w.disk.put l .directory } := by
  unfold makeDirectory
  constructor
  · intro h
    split at h
    · cases h
    · rename_i l hl
      split at h
      · cases h
      · rename_i hnode
        cases h
        exact ⟨l, hl, hnode, rfl⟩
  · intro h
    obtain ⟨l, hl, hnode, rfl⟩ := h
    simp only [hl, hnode]

theorem furnishes_of_makeDirectory (h : w.makeDirectory p = .ok after) : Furnishes w after := by
  obtain ⟨l, -, hnode, rfl⟩ := makeDirectory_eq_ok_iff.mp h
  refine ⟨rfl, rfl, fun other => ?_⟩
  by_cases hother : other = l
  · obtain rfl := hother
    exact .inr ⟨hnode, Disk.node?_put _ _ _⟩
  · exact .inl (Disk.node?_put_of_ne hother _ _)

theorem furnishes_ensureNames (root : Text) (names : List Text) :
    Furnishes w (w.ensureNames root names).2 := by
  induction names with
  | nil =>
    rw [ensureNames]
    split
    · exact furnishes_of_makeDirectory ‹_›
    · exact .refl w
  | cons name around ih =>
    rw [ensureNames]
    split
    · exact furnishes_of_makeDirectory ‹_›
    · -- the directories around have been made, whatever comes of this one
      split
      · rename_i he
        rw [he] at ih
        exact ih
      · rename_i hmid
        rw [hmid] at ih
        split
        · exact ih.trans (furnishes_of_makeDirectory ‹_›)
        · exact ih
    · exact .refl w

theorem furnishes_of_ensureNames {root : Text} {names : List Text} {result : Except Fault Unit}
    (h : w.ensureNames root names = (result, after)) : Furnishes w after := by
  have hfurnishes := w.furnishes_ensureNames root names
  rwa [h] at hfurnishes

/-- Where directories are made, nothing else changes. -/
theorem furnishes_of_ensureDirectory {result : Except Fault Unit}
    (h : w.ensureDirectory p = (result, after)) : Furnishes w after := furnishes_of_ensureNames h

/-! ## Directories that can be made -/

theorem locate_of_fits (hclean : '\x00' ∉ p.toText) (hfits : w.disk.byteSize p.toText < pathLimit) :
    w.locate p = w.disk.walk (w.start p) p.names := by
  rw [locate, if_neg fun h => hclean (List.contains_iff_mem.mp h), if_neg (Nat.not_le_of_lt hfits)]

theorem locate_eq_ok_iff : w.locate p = .ok l ↔ '\x00' ∉ p.toText ∧
    w.disk.byteSize p.toText < pathLimit ∧ w.disk.walk (w.start p) p.names = .ok l := by
  have hnull : p.toText.contains '\x00' = true ↔ '\x00' ∈ p.toText := List.contains_iff_mem
  rw [locate]
  split
  · rename_i hcontains
    simp [hnull.mp hcontains]
  · rename_i hcontains
    rw [hnull] at hcontains
    split
    · rename_i hlong
      simp [Nat.not_lt_of_le hlong]
    · rename_i hfits
      simp [hcontains, Nat.lt_of_not_le hfits]

theorem node_eq_ok_iff {found : Node} :
    w.node p = .ok found ↔ ∃ l, w.locate p = .ok l ∧ w.disk.node? l = some found := by
  unfold node
  cases w.locate p with
  | error e => simp
  | ok l => cases hnode : w.disk.node? l <;> simp [hnode]

/-- At a location where no file is, a directory is made or found. -/
theorem exists_made (hl : w.locate p = .ok l) (hfile : w.disk.file? l = none) :
    ∃ after, (w.makeDirectory p = .ok after ∨
        w.makeDirectory p = .error .exists ∧ w.settle p .exists = .ok () ∧ after = w) ∧
      after.disk.node? l = some .directory ∧
      ∀ other, other ≠ l → after.disk.node? other = w.disk.node? other := by
  cases hnode : w.disk.node? l with
  | none =>
    exact ⟨_, .inl (makeDirectory_eq_ok_iff.mpr ⟨l, hl, hnode, rfl⟩), Disk.node?_put _ _ _,
      fun other hother => Disk.node?_put_of_ne hother _ _⟩
  | some found =>
    cases found with
    | file bytes =>
      rw [Disk.file?, hnode] at hfile
      cases hfile
    | directory =>
      refine ⟨w, .inr ⟨?_, ?_, rfl⟩, hnode, fun _ _ => rfl⟩
      · simp only [makeDirectory, hl, hnode]
      · simp only [settle, node, hl, hnode]

/-- When the directories around are there, a directory is made or found in them. -/
theorem exists_made_in {root name : Text} {names : List Text} {start : Location}
    (hmid : Furnishes w mid) (hstart : w.start ⟨root, names ++ [name]⟩ = start)
    (hclean : '\x00' ∉ (Path.mk root (names ++ [name])).toText)
    (hfits : w.disk.byteSize (Path.mk root (names ++ [name])).toText < pathLimit)
    (hshort : ∀ n ∈ names ++ [name], w.disk.isTooLong n = false)
    (haround : ∀ l ∈ Disk.trail start names, mid.disk.node? l = some .directory)
    (hfile : w.disk.file? (Disk.follow start (names ++ [name])) = none) :
    ∃ after, (mid.makeDirectory ⟨root, names ++ [name]⟩ = .ok after ∨
        mid.makeDirectory ⟨root, names ++ [name]⟩ = .error .exists ∧
          mid.settle ⟨root, names ++ [name]⟩ .exists = .ok () ∧ after = mid) ∧
      (∀ l ∈ Disk.trail start (names ++ [name]), after.disk.node? l = some .directory) ∧
      ∀ l, l ∉ Disk.trail start (names ++ [name]) → after.disk.node? l = mid.disk.node? l := by
  have hl : mid.locate ⟨root, names ++ [name]⟩ = .ok (Disk.follow start (names ++ [name])) := by
    rw [← hmid.byteSize] at hfits
    simp only [← hmid.isTooLong] at hshort
    rw [locate_of_fits hclean hfits, hmid.start, hstart]
    exact Disk.walk_eq_ok_iff.mpr ⟨haround, hshort, rfl⟩
  obtain ⟨after, hmade, hnew, hkept⟩ := exists_made hl ((hmid.file? _).trans hfile)
  refine ⟨after, hmade, ?_, ?_⟩
  · intro l hl
    by_cases hsame : l = Disk.follow start (names ++ [name])
    · rw [hsame, hnew]
    · rw [Disk.trail_concat, List.mem_append, List.mem_singleton] at hl
      rw [hkept l hsame, haround l (hl.resolve_right hsame)]
  · intro l hl
    rw [Disk.trail_concat, List.mem_append, List.mem_singleton, not_or] at hl
    exact hkept l hl.2

/-- Where no file is in the way, directories are made all along the names, and nowhere else. -/
theorem exists_ensured {root : Text} {around : List Text} {start : Location}
    (hstart : w.start ⟨root, around.reverse⟩ = start)
    (hclean : '\x00' ∉ (Path.mk root around.reverse).toText)
    (hfits : w.disk.byteSize (Path.mk root around.reverse).toText < pathLimit)
    (hshort : ∀ name ∈ around.reverse, w.disk.isTooLong name = false)
    (hfiles : ∀ l ∈ Disk.trail start around.reverse, w.disk.file? l = none) :
    ∃ after, w.ensureNames root around = (.ok (), after) ∧
      (∀ l ∈ Disk.trail start around.reverse, after.disk.node? l = some .directory) ∧
      ∀ l, l ∉ Disk.trail start around.reverse → after.disk.node? l = w.disk.node? l := by
  induction around with
  | nil =>
    have hl : w.locate ⟨root, [].reverse⟩ = .ok start := by
      rw [locate_of_fits hclean hfits]
      exact congrArg Except.ok hstart
    obtain ⟨after, hmade, hnew, hkept⟩ := exists_made hl (hfiles start List.mem_cons_self)
    refine ⟨after, ?_, by simpa [Disk.trail] using hnew, by simpa [Disk.trail] using hkept⟩
    rcases hmade with hmade | ⟨hexists, hsettle, rfl⟩
    · rw [List.reverse_nil] at hmade
      simp only [ensureNames, hmade]
    · rw [List.reverse_nil] at hexists hsettle
      simp only [ensureNames, hexists, hsettle]
  | cons name around ih =>
    rw [List.reverse_cons] at hstart hclean hfits hshort hfiles ⊢
    have hnames : (name :: around).reverse = around.reverse ++ [name] := List.reverse_cons
    have haround : ∀ l ∈ Disk.trail start around.reverse, w.disk.file? l = none := by
      intro l hl
      refine hfiles l ?_
      rw [Disk.trail_concat]
      exact List.mem_append_left _ hl
    have hfile := hfiles _ (Disk.follow_mem_trail start (around.reverse ++ [name]))
    cases hl : w.locate ⟨root, around.reverse ++ [name]⟩ with
    | ok l =>
      rw [locate_of_fits hclean hfits, hstart] at hl
      obtain ⟨hdirectories, -, -⟩ := Disk.walk_eq_ok_iff.mp hl
      obtain ⟨after, hmade, hnew⟩ :=
        exists_made_in (.refl w) hstart hclean hfits hshort hdirectories hfile
      refine ⟨after, ?_, hnew⟩
      rcases hmade with hmade | ⟨hexists, hsettle, rfl⟩
      · simp only [ensureNames, hnames, hmade]
      · simp only [ensureNames, hnames, hexists, hsettle]
    | error e =>
      -- something is missing on the way, so that the directories around are made first
      obtain rfl : e = .notFound := by
        rw [locate_of_fits hclean hfits, hstart] at hl
        exact Disk.eq_notFound_of_walk hfiles hshort hl
      have hmissing : w.makeDirectory ⟨root, around.reverse ++ [name]⟩ = .error .notFound := by
        simp only [makeDirectory, hl]
      obtain ⟨mid, hmid, hdirectories, hbefore⟩ := ih hstart (Path.clean_around hclean)
        (Path.fits_around (by decide) hfits)
        (fun n hn => hshort n (List.mem_append_left _ hn)) haround
      obtain ⟨after, hmade, hnew, hkept⟩ := exists_made_in (furnishes_of_ensureNames hmid) hstart
        hclean hfits hshort hdirectories hfile
      refine ⟨after, ?_, hnew, fun l hl => (hkept l hl).trans (hbefore l fun hmem => hl ?_)⟩
      · rcases hmade with hmade | ⟨hexists, hsettle, rfl⟩
        · simp only [ensureNames, hnames, hmissing, hmid, hmade]
        · simp only [ensureNames, hnames, hmissing, hmid, hexists, hsettle]
      · rw [Disk.trail_concat]
        exact List.mem_append_left _ hmem

/-- Where a directory has been ensured, one is. -/
theorem node_of_ensureNames {root : Text} {names : List Text}
    (h : w.ensureNames root names = (.ok (), after)) :
    after.node ⟨root, names.reverse⟩ = .ok .directory := by
  have hmade {before now : World} {p : Path} (h : before.makeDirectory p = .ok now) :
      now.node p = .ok .directory := by
    obtain ⟨l, hl, hnode, rfl⟩ := makeDirectory_eq_ok_iff.mp h
    have hafter : World.locate { before with disk := before.disk.put l .directory } p = .ok l := by
      obtain ⟨hclean, hfits, hwalk⟩ := locate_eq_ok_iff.mp hl
      rw [← Disk.byteSize_put _ l .directory] at hfits
      exact locate_eq_ok_iff.mpr ⟨hclean, hfits, Disk.walk_put .directory (by simp [hnode]) hwalk⟩
    exact node_eq_ok_iff.mpr ⟨l, hafter, Disk.node?_put _ _ _⟩
  have hsettled {p : Path} {e : DiskError} (h : after.settle p e = .ok ()) :
      after.node p = .ok .directory := by
    unfold settle at h
    split at h
    · assumption
    · cases h
  cases names with
  | nil =>
    rw [ensureNames] at h
    split at h
    · cases h
      exact hmade ‹_›
    · obtain ⟨hsettle, rfl⟩ := Prod.mk.inj h
      exact hsettled hsettle
  | cons name around =>
    rw [ensureNames] at h
    split at h
    · cases h
      exact hmade ‹_›
    · split at h
      · cases h
      · split at h
        · cases h
          exact hmade ‹_›
        · obtain ⟨hsettle, rfl⟩ := Prod.mk.inj h
          exact hsettled hsettle
    · obtain ⟨hsettle, rfl⟩ := Prod.mk.inj h
      exact hsettled hsettle

theorem exists_ensureDirectory (hclean : '\x00' ∉ p.toText)
    (hfits : w.disk.byteSize p.toText < pathLimit)
    (hshort : ∀ name ∈ p.names, w.disk.isTooLong name = false)
    (hfiles : ∀ l ∈ Disk.trail (w.start p) p.names, w.disk.file? l = none) :
    ∃ after, w.ensureDirectory p = (.ok (), after) ∧
      (∀ l ∈ Disk.trail (w.start p) p.names, after.disk.node? l = some .directory) ∧
      ∀ l, l ∉ Disk.trail (w.start p) p.names → after.disk.node? l = w.disk.node? l := by
  rw [← List.reverse_reverse p.names] at hshort hfiles ⊢
  exact exists_ensured rfl (by rwa [List.reverse_reverse]) (by rwa [List.reverse_reverse]) hshort
    hfiles

/-- A directory that is there is left as it is. -/
theorem ensureDirectory_of_node (h : w.node p = .ok .directory) :
    w.ensureDirectory p = (.ok (), w) := by
  obtain ⟨root, names⟩ := p
  have hmake : w.makeDirectory ⟨root, names⟩ = .error .exists := by
    obtain ⟨l, hl, hnode⟩ := node_eq_ok_iff.mp h
    simp only [makeDirectory, hl, hnode]
  have hsettle : w.settle ⟨root, names⟩ .exists = .ok () := by simp only [settle, h]
  rw [ensureDirectory]
  dsimp only
  rw [← List.reverse_reverse names] at hmake hsettle
  cases hreverse : names.reverse with
  | nil =>
    rw [hreverse] at hmake hsettle
    rw [List.reverse_nil] at hmake hsettle
    simp only [ensureNames, hmake, hsettle]
  | cons name around =>
    rw [hreverse] at hmake hsettle
    simp only [ensureNames, hmake, hsettle]

/-- A directory stays where it is when a file is written. -/
theorem node_of_writeBytes {q : Path} {bytes : ByteArray} (h : w.writeBytes q bytes = .ok after)
    (hp : w.node p = .ok .directory) : after.node p = .ok .directory := by
  obtain ⟨target, -, hfree, hafter⟩ := writeBytes_eq_ok_iff.mp h
  obtain ⟨l, hl, hnode⟩ := node_eq_ok_iff.mp hp
  have hne : l ≠ target := by
    rintro rfl
    exact hfree hnode
  refine node_eq_ok_iff.mpr ⟨l, locate_of_writeBytes h hl, ?_⟩
  rw [hafter]
  exact (Disk.node?_put_of_ne hne _ _).trans hnode

theorem node_of_ensureDirectory (h : w.ensureDirectory p = (.ok (), after)) :
    after.node p = .ok .directory := by
  have hnode := node_of_ensureNames h
  rwa [List.reverse_reverse] at hnode

end World

end Gamebook
