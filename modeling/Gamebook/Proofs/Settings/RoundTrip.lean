import Gamebook.Proofs.Bookmark.Writing
import Gamebook.Proofs.Json.Numbers
import Gamebook.Proofs.Settings.Files
set_option autoImplicit false

/-!
# Settings that are read back

Whatever is in a file of settings, what is loaded from it can be kept in a file again and is
loaded from there as it is: the width is large enough, the ruler is one character, there is a
seed, and no number is too long to be read.  Each field is read from its own member alone.
-/

namespace Gamebook

open Text

/-! ## Texts of settings -/

namespace Json

/-- A text starts with a character that is no white space. -/
def StartsPlain (s : Text) : Prop :=
  ∃ c rest, s = c :: rest ∧ c ≠ ' ' ∧ c ≠ '\t' ∧ c ≠ '\n' ∧ c ≠ '\r'

theorem skipSpace_of_startsPlain {s : Text} (h : StartsPlain s) (t : Text) :
    skipSpace (s ++ t) = s ++ t := by
  obtain ⟨c, rest, rfl, hc⟩ := h
  simp [skipSpace, hc]

theorem startsPlain_quoted (s : Text) : StartsPlain (quoted s) :=
  ⟨'"', _, rfl, by decide⟩

theorem startsPlain_ofInt (n : Int) : StartsPlain (ofInt n) := by
  obtain ⟨d, rest, hd, hn | hn⟩ := ofInt_cases n
  · exact ⟨d, rest, hn, (ne_of_isDigit hd rfl).symm, (ne_of_isDigit hd rfl).symm,
      (ne_of_isDigit hd rfl).symm, (ne_of_isDigit hd rfl).symm⟩
  · exact ⟨'-', _, hn, by decide⟩

/-- A text is read as a value, whatever follows that does not go on with a number. -/
structure Writes (s : Text) (value : Json) : Prop where
  plain : StartsPlain s
  read : ∀ depth after, EndsNumber after → value? (depth + 1) (s ++ after) = some (value, after)

theorem writes_ofInt {n : Int} (h : n.natAbs < 10 ^ Overlong.limit) :
    Writes (ofInt n) (.integer n) := ⟨startsPlain_ofInt n, fun depth _ => value?_ofInt depth h⟩

theorem writes_quoted (s : Text) : Writes (Json.quoted s) (.text s) :=
  ⟨startsPlain_quoted s, fun depth after _ => value?_quoted depth s after⟩

end Json

namespace Settings

open Json

/-- Members on lines of their own, up to the end of the object. -/
def memberLines : List (Text × Text) → Text
  | [] => ['\n', '\x7d']
  | [(name, v)] => memberLine name v ++ ['\n', '\x7d']
  | (name, v) :: rest => memberLine name v ++ ',' :: '\n' :: memberLines rest

theorem skipSpace_memberLine (name v after : Text) :
    skipSpace (memberLine name v ++ after) =
      '"' :: (name.flatMap Json.escape ++ '"' :: ':' :: ' ' :: (v ++ after)) := by
  simp [memberLine, Json.quoted, skipSpace]

section

variable {depth : Nat} {name v after rest : Text} {value : Json}

/-- A member is read from its line when the object ends after it. -/
theorem members?_last (hv : Writes v value) (hends : EndsNumber after)
    (hafter : skipSpace after = '\x7d' :: rest) :
    members? (depth + 2) (skipSpace (memberLine name v ++ after)) =
      some ([(name, value)], rest) := by
  have hcolon : skipSpace (':' :: ' ' :: (v ++ after)) = ':' :: ' ' :: (v ++ after) := rfl
  have hspace : skipSpace (' ' :: (v ++ after)) = v ++ after := skipSpace_of_startsPlain hv.plain _
  rw [skipSpace_memberLine]
  simp only [members?, unquote?_flatMap_escape, hcolon, hspace, hv.read _ _ hends, hafter]

/-- A member is read from its line when more members follow. -/
theorem members?_more {last : Text} {ms : List (Text × Json)} (hv : Writes v value)
    (hends : EndsNumber after) (hafter : skipSpace after = ',' :: rest)
    (hmore : members? (depth + 1) (skipSpace rest) = some (ms, last)) :
    members? (depth + 1 + 1) (skipSpace (memberLine name v ++ after)) =
      some ((name, value) :: ms, last) := by
  have hcolon : skipSpace (':' :: ' ' :: (v ++ after)) = ':' :: ' ' :: (v ++ after) := rfl
  have hspace : skipSpace (' ' :: (v ++ after)) = v ++ after := skipSpace_of_startsPlain hv.plain _
  have hread := hv.read depth after hends
  rw [skipSpace_memberLine]
  generalize depth + 1 = inner at hmore hread ⊢
  simp only [members?, unquote?_flatMap_escape, hcolon, hspace, hread, hafter, hmore,
    Option.map_some]

end

/-- Members are read from their lines. -/
theorem members?_memberLines {ls : List (Text × Text)} {ms : List (Text × Json)}
    (h : List.Forall₂ (fun l m => l.1 = m.1 ∧ Writes l.2 m.2) ls ms) (hne : ls ≠ [])
    (depth : Nat) : members? (depth + ls.length + 1) (skipSpace (memberLines ls)) =
      some (ms, []) := by
  induction h with
  | nil => exact absurd rfl hne
  | @cons l m ls ms head tail ih =>
    obtain ⟨name, v⟩ := l
    obtain ⟨_, value⟩ := m
    obtain ⟨rfl, hv⟩ := head
    cases tail with
    | nil => exact members?_last hv (by simp [EndsNumber]) rfl
    | @cons next _ rest _ first others =>
      exact members?_more hv (by simp [EndsNumber]) rfl (ih (List.cons_ne_nil _ _))

theorem length_le_memberLines (ls : List (Text × Text)) :
    ls.length ≤ (memberLines ls).length := by
  induction ls with
  | nil => exact Nat.zero_le _
  | cons l rest ih =>
    cases rest with
    | nil => simp [memberLines]
    | cons next more =>
      simp only [memberLines, List.length_append, List.length_cons] at ih ⊢
      omega

/-- An object is read from the lines of its members. -/
theorem ofText?_memberLines {ls : List (Text × Text)} {ms : List (Text × Json)}
    (h : List.Forall₂ (fun l m => l.1 = m.1 ∧ Writes l.2 m.2) ls ms) (hne : ls ≠ []) :
    Json.ofText? ('\x7b' :: '\n' :: memberLines ls) = some (.object ms) := by
  obtain ⟨depth, hdepth⟩ : ∃ depth,
      2 * ('\x7b' :: '\n' :: memberLines ls).length + 2 = depth + ls.length + 1 + 1 := by
    have hlength := length_le_memberLines ls
    refine ⟨2 * (memberLines ls).length - ls.length + 4, ?_⟩
    simp only [List.length_cons]
    omega
  have hopen : skipSpace ('\x7b' :: '\n' :: memberLines ls) =
      '\x7b' :: '\n' :: memberLines ls := rfl
  have hmembers := members?_memberLines h hne depth
  have hline : skipSpace ('\n' :: memberLines ls) = skipSpace (memberLines ls) := rfl
  obtain ⟨tail, htail⟩ : ∃ tail, skipSpace (memberLines ls) = '"' :: tail := by
    match ls, hne with
    | [(name, v)], _ => exact ⟨_, skipSpace_memberLine name v _⟩
    | (name, v) :: next :: more, _ => exact ⟨_, skipSpace_memberLine name v _⟩
  rw [Json.ofText?, hdepth, hopen]
  rw [htail] at hmembers
  generalize depth + ls.length + 1 = inner at hmembers ⊢
  have hnothing : skipSpace [] = [] := rfl
  simp [value?, hline, htail, hmembers, hnothing]

theorem isAscii_memberLine (name : Text) {v : Text} (h : IsAscii v) :
    IsAscii (memberLine name v) := by
  simp [memberLine, isAscii_quoted, h]

theorem isAscii_seedText (seed? : Option Int) : IsAscii (seedText seed?) := by
  cases seed? with
  | none => simp [seedText]
  | some n => exact isAscii_ofInt n

theorem isAscii_toText (s : Settings) : IsAscii s.toText := by
  have hwidth := isAscii_memberLine widthName (isAscii_ofInt s.width)
  have hruler := isAscii_memberLine rulerName (isAscii_quoted s.ruler)
  have hseed := isAscii_memberLine seedName (isAscii_seedText s.seed?)
  simp [toText, hwidth, hruler, hseed]

/-- Every disk can encode the text of settings. -/
theorem encodes_toText (d : Disk) (s : Settings) : d.Encodes s.toText := fun c hc =>
  Disk.isStray_of_lt (Nat.lt_trans (isAscii_toText s c hc) (by decide))

/-- Settings can be read again from their text: the numbers are not too long to be read. -/
structure IsNormal (s : Settings) : Prop where
  width : leastWidth ≤ s.width
  widthShort : s.width.natAbs < 10 ^ Overlong.limit
  ruler : ∃ c, s.ruler = [c]
  seed : ∃ n, s.seed? = some n ∧ n.natAbs < 10 ^ Overlong.limit

variable {s : Settings}

theorem toText_eq_memberLines (width n : Int) (ruler : Text) : toText ⟨width, ruler, some n⟩ =
    '\x7b' :: '\n' :: memberLines [(widthName, ofInt width), (rulerName, Json.quoted ruler),
      (seedName, ofInt n)] := by
  simp [toText, seedText, memberLines]

/-- Normal settings are read from their text. -/
theorem ofText_toText (h : s.IsNormal) : ofText s.toText = s := by
  obtain ⟨width, ruler, seed?⟩ := s
  obtain ⟨hwidth, hwidthShort, ⟨c, rfl⟩, n, rfl, hn⟩ := h
  have hlines : List.Forall₂ (fun (l : Text × Text) (m : Text × Json) => l.1 = m.1 ∧ Writes l.2 m.2)
      [(widthName, ofInt width), (rulerName, Json.quoted [c]), (seedName, ofInt n)]
      [(widthName, .integer width), (rulerName, .text [c]), (seedName, .integer n)] :=
    .cons ⟨rfl, writes_ofInt hwidthShort⟩
      (.cons ⟨rfl, writes_quoted [c]⟩ (.cons ⟨rfl, writes_ofInt hn⟩ .nil))
  rw [ofText, toText_eq_memberLines, ofText?_memberLines hlines (List.cons_ne_nil _ _)]
  generalize hms : [(widthName, Json.integer width), (rulerName, .text [c]),
    (seedName, .integer n)] = ms
  have hwidthOf : member? widthName ms = some (.integer width) := hms ▸ rfl
  have hrulerOf : member? rulerName ms = some (.text [c]) := hms ▸ rfl
  have hseedOf : member? seedName ms = some (.integer n) := hms ▸ rfl
  simp only [ofJson, hwidthOf, hrulerOf, hseedOf, widthOf, if_pos hwidth, rulerOf, seedOf]

/-- A ruler beyond the basic plane is written as two surrogates and read again. -/
example : Json.quoted ['𝄞'] = "\"\\ud834\\udd1e\"".toList ∧
    ofText (toText ⟨20, ['𝄞'], some (-7)⟩) = ⟨20, ['𝄞'], some (-7)⟩ := by
  decide +kernel

/-! ## Settings that have been loaded -/

theorem natAbs_lt_of_lt_hundred {n : Int} (h : n.natAbs < 100) :
    n.natAbs < 10 ^ Overlong.limit := by
  have hlimit : 2 ≤ Overlong.limit := by decide
  calc n.natAbs < 10 ^ 2 := h
    _ ≤ 10 ^ Overlong.limit := Nat.pow_le_pow_right (by decide) hlimit

theorem isNormal_standard : standard.IsNormal where
  width := by decide
  widthShort := natAbs_lt_of_lt_hundred (by decide)
  ruler := ⟨'-', rfl⟩
  seed := ⟨standardSeed, rfl, natAbs_lt_of_lt_hundred (by decide)⟩

theorem mem_of_member? {name : Text} {ms : List (Text × Json)} {v : Json}
    (h : member? name ms = some v) : (name, v) ∈ ms := by
  obtain ⟨before, after, hms, -⟩ := List.lookup_eq_some_iff.mp h
  exact List.mem_reverse.mp (by simp [hms])

/-- Whatever the members of an object are, the settings in it are normal. -/
theorem isNormal_ofJson {t : Text} {ms : List (Text × Json)}
    (h : Json.ofText? t = some (.object ms)) : (ofJson (.object ms)).IsNormal := by
  have hshort {name : Text} {n : Int} (hn : member? name ms = some (.integer n)) :
      n.natAbs < 10 ^ Overlong.limit := natAbs_lt_of_ofText? h (mem_of_member? hn)
  have hwidth : leastWidth ≤ widthOf (member? widthName ms) ∧
      (widthOf (member? widthName ms)).natAbs < 10 ^ Overlong.limit := by
    unfold widthOf
    split
    · rename_i n hn
      split
      · rename_i hleast
        exact ⟨hleast, hshort hn⟩
      · exact ⟨isNormal_standard.width, isNormal_standard.widthShort⟩
    · exact ⟨isNormal_standard.width, isNormal_standard.widthShort⟩
  refine ⟨hwidth.1, hwidth.2, ?_, _, rfl, ?_⟩
  · show ∃ c, rulerOf (member? rulerName ms) = [c]
    unfold rulerOf
    split
    · exact ⟨_, rfl⟩
    · exact isNormal_standard.ruler
  · unfold seedOf
    split
    · rename_i n hn
      exact hshort hn
    · exact natAbs_lt_of_lt_hundred (by decide)

/-- Each field is its member, where that can be used, and the standard one where it cannot. -/
structure TakenFrom (s : Settings) (ms : List (Text × Json)) : Prop where
  width : ∀ n, 20 ≤ n → Json.member? widthName ms = some (.integer n) → s.width = n
  noWidth : (∀ n, 20 ≤ n → Json.member? widthName ms ≠ some (.integer n)) → s.width = 80
  ruler : ∀ c, Json.member? rulerName ms = some (.text [c]) → s.ruler = [c]
  noRuler : (∀ c, Json.member? rulerName ms ≠ some (.text [c])) → s.ruler = ['-']
  seed : ∀ n, Json.member? seedName ms = some (.integer n) → s.seed? = some n
  noSeed : (∀ n, Json.member? seedName ms ≠ some (.integer n)) → s.seed? = some 6

theorem takenFrom_ofJson (ms : List (Text × Json)) : (ofJson (.object ms)).TakenFrom ms where
  width n hn hmember := by simp [ofJson, widthOf, hmember, leastWidth, hn]
  noWidth h := by
    simp only [ofJson]
    unfold widthOf
    split
    · rename_i n hmember
      exact if_neg fun hn => h n hn hmember
    · rfl
  ruler c hmember := by simp [ofJson, rulerOf, hmember]
  noRuler h := by
    simp only [ofJson]
    unfold rulerOf
    split
    · exact absurd ‹_› (h _)
    · rfl
  seed n hmember := by simp [ofJson, seedOf, hmember]
  noSeed h := by
    simp only [ofJson]
    unfold seedOf
    split
    · exact absurd ‹_› (h _)
    · rfl

/-- Whatever a text says, the settings in it are normal. -/
theorem isNormal_ofText (t : Text) : (ofText t).IsNormal := by
  unfold ofText
  split
  · rename_i v hv
    cases v with
    | object ms => exact isNormal_ofJson hv
    | _ => exact isNormal_standard
  · exact isNormal_standard

end Settings

namespace World

variable {w : World} {p : Path}

/-- Whatever is at a path, the settings that are loaded from there are normal. -/
theorem isNormal_loadSettings (w : World) (p : Path) : (w.loadSettings p).IsNormal := by
  unfold loadSettings
  split
  · unfold Settings.ofBytes
    split
    · exact Settings.isNormal_ofText _
    · exact Settings.isNormal_standard
  · exact Settings.isNormal_standard

/-- The file at the path holds an object with these members. -/
def HoldsObject (w : World) (p : Path) (ms : List (Text × Json)) : Prop :=
  ∃ bytes s, w.readBytes p = .ok bytes ∧ Text.ofBytes? bytes = some s ∧
    Json.ofText? s = some (.object ms)

theorem loadSettings_of_holdsObject {ms : List (Text × Json)} (h : w.HoldsObject p ms) :
    w.loadSettings p = .ofJson (.object ms) := by
  obtain ⟨bytes, s, hbytes, hs, hobject⟩ := h
  simp only [loadSettings, hbytes, Settings.ofBytes, hs, Settings.ofText, hobject]

theorem loadSettings_of_not_holdsObject (h : ∀ ms, ¬ w.HoldsObject p ms) :
    w.loadSettings p = .standard := by
  unfold loadSettings
  split
  · rename_i bytes hbytes
    unfold Settings.ofBytes
    split
    · rename_i s hs
      unfold Settings.ofText
      split
      · rename_i v hv
        cases v with
        | object ms => exact absurd ⟨bytes, s, hbytes, hs, hv⟩ (h ms)
        | _ => rfl
      · rfl
    · rfl
  · rfl

/-- Normal settings are kept at any path where a file can be written, and are loaded from there as
they are; keeping them there again changes nothing. -/
theorem saveSettings_of_isNormal {s : Settings} (h : s.IsNormal) (hw : w.Writable p) :
    ∃ after, w.saveSettings p s = (.ok (), after) ∧ after.loadSettings p = s ∧
      after.saveSettings p s = (.ok (), after) := by
  obtain ⟨after, hsave⟩ := exists_saveSettings_iff.mpr hw
  refine ⟨after, hsave, ?_, saveSettings_of_saveSettings hsave⟩
  rw [loadSettings_of_saveSettings hsave, Settings.ofText_toText h]

/-- Loading settings always succeeds, and what is loaded can be kept and loaded again.  The width
is large enough, the ruler is one character, and there is a seed; a path that holds no object has
the standard settings, and where there is an object each field is its member, if that is valid.
Whatever the width, the ruler and the seed are, settings that are kept at a path where a file can be
written are loaded from there as they are, and keeping them there again changes nothing; so it is
with those that have been loaded.  Every disk can encode their text, which is ASCII.  Each field depends on its own member alone: between objects that
differ in one member at most, the other two fields are the same. -/
theorem loadSettings_round_trip (w : World) (p : Path) :
    let c := w.loadSettings p
    (20 ≤ c.width ∧ (∃ ch, c.ruler = [ch]) ∧ ∃ n, c.seed? = some n) ∧
    ((∀ ms, ¬ w.HoldsObject p ms) → c = .standard) ∧
    (∀ ms, w.HoldsObject p ms → c.TakenFrom ms) ∧
    (∀ (before : World) (q : Path), before.Writable q →
      ∃ after, before.saveSettings q c = (.ok (), after) ∧ after.loadSettings q = c ∧
        after.saveSettings q c = (.ok (), after)) ∧
    (∀ (width seed : Int) (ruler : Char), 20 ≤ width → width.natAbs < 10 ^ Overlong.limit →
      seed.natAbs < 10 ^ Overlong.limit →
      ∀ (before : World) (q : Path), before.Writable q →
        ∃ after, before.saveSettings q ⟨width, [ruler], some seed⟩ = (.ok (), after) ∧
          after.loadSettings q = ⟨width, [ruler], some seed⟩ ∧
          after.saveSettings q ⟨width, [ruler], some seed⟩ = (.ok (), after)) ∧
    (∀ (d : Disk) (s : Settings), d.Encodes s.toText) ∧
    ∀ (other : World) (q : Path) (ms others : List (Text × Json)) (key : Text),
      w.HoldsObject p ms → other.HoldsObject q others →
      (∀ name, name ≠ key → Json.member? name ms = Json.member? name others) →
      (key ≠ Settings.widthName → c.width = (other.loadSettings q).width) ∧
      (key ≠ Settings.rulerName → c.ruler = (other.loadSettings q).ruler) ∧
      (key ≠ Settings.seedName → c.seed? = (other.loadSettings q).seed?) := by
  intro c
  have hnormal : c.IsNormal := w.isNormal_loadSettings p
  obtain ⟨n, hseed, -⟩ := hnormal.seed
  refine ⟨⟨hnormal.width, hnormal.ruler, n, hseed⟩, loadSettings_of_not_holdsObject, ?_,
    fun _ _ hq => saveSettings_of_isNormal hnormal hq, ?_, Settings.encodes_toText, ?_⟩
  · intro ms hms
    have hc : c = .ofJson (.object ms) := loadSettings_of_holdsObject hms
    rw [hc]
    exact Settings.takenFrom_ofJson ms
  · intro width seed ruler hwidth hwidthShort hseedShort before q hq
    exact saveSettings_of_isNormal ⟨hwidth, hwidthShort, ⟨ruler, rfl⟩, seed, rfl, hseedShort⟩ hq
  · intro other q ms others key hms hothers hsame
    have hc : c = .ofJson (.object ms) := loadSettings_of_holdsObject hms
    rw [hc, loadSettings_of_holdsObject hothers]
    refine ⟨fun hkey => ?_, fun hkey => ?_, fun hkey => ?_⟩
    · simp only [Settings.ofJson, hsame _ (Ne.symm hkey)]
    · simp only [Settings.ofJson, hsame _ (Ne.symm hkey)]
    · simp only [Settings.ofJson, hsame _ (Ne.symm hkey)]

/-- On an empty disk, settings with another width, ruler and seed are kept on a shelf that is not
there yet, and read back from there. -/
theorem loadSettings_round_trip_shelf :
    let w : World := ⟨{ entries := [] }, [], default, [], default, none⟩
    let p : Path := ⟨[], ["shelf".toList, "settings".toList]⟩
    w.Writable p ∧ ∃ after, w.saveSettings p ⟨64, ['𝄞'], some (-7)⟩ = (.ok (), after) ∧
      after.loadSettings p = ⟨64, ['𝄞'], some (-7)⟩ := by
  intro w p
  have hwritable : w.Writable p :=
    { clean := by decide
      fits := by decide
      short := by decide
      passable := by decide
      apart := by decide
      free := nofun }
  obtain ⟨-, -, -, -, hkeeps, -⟩ := loadSettings_round_trip w p
  obtain ⟨after, hsave, hload, -⟩ := hkeeps 64 (-7) '𝄞' (by decide)
    (Settings.natAbs_lt_of_lt_hundred (by decide)) (Settings.natAbs_lt_of_lt_hundred (by decide))
    w p hwritable
  exact ⟨hwritable, after, hsave, hload⟩

end World

end Gamebook
