import Gamebook.Json.Quoted
set_option autoImplicit false

/-!
# JSON strings that are read back

Every text is read back from between the quotes in which it is written: a character is written
as one code point of the basic plane, or as two surrogates, and each of these as itself or as
an escape.  What is written is ASCII.
-/

namespace Gamebook

/-! ## ASCII -/

namespace Text

variable {s t : Text} {c : Char}

/-- The text has no characters but those of ASCII. -/
def IsAscii (s : Text) : Prop := ∀ c ∈ s, c.toNat < 0x80

@[simp] theorem isAscii_nil : IsAscii [] := List.forall_mem_nil _

@[simp] theorem isAscii_cons : IsAscii (c :: s) ↔ c.toNat < 0x80 ∧ IsAscii s :=
  List.forall_mem_cons

@[simp] theorem isAscii_append : IsAscii (s ++ t) ↔ IsAscii s ∧ IsAscii t :=
  List.forall_mem_append

end Text

namespace Json

open Text

/-! ## Code points -/

/-- The code points of the basic plane that a character is written with. -/
def unitsOf (c : Char) : List Nat :=
  if c.toNat < 0x10000 then [c.toNat]
  else [0xD800 + (c.toNat - 0x10000) / 0x400, 0xDC00 + (c.toNat - 0x10000) % 0x400]

/-- No character is a surrogate. -/
theorem toNat_range (c : Char) : c.toNat < 0xD800 ∨ 0xDFFF < c.toNat ∧ c.toNat < 0x110000 :=
  c.valid

theorem ofUnits_cons {n : Nat} (h : n < 0xD800 ∨ 0xDFFF < n) (ns : List Nat) :
    ofUnits (n :: ns) = Char.ofNat n :: ofUnits ns := by
  have hhigh : isHighSurrogate n = false := by
    simp only [isHighSurrogate, Bool.and_eq_false_iff, decide_eq_false_iff_not]
    omega
  have hlow : isLowSurrogate n = false := by
    simp only [isLowSurrogate, Bool.and_eq_false_iff, decide_eq_false_iff_not]
    omega
  cases ns with
  | nil => simp [ofUnits, hhigh, hlow]
  | cons low rest => simp [ofUnits, hhigh, hlow]

/-- A character is read from its code points. -/
theorem ofUnits_unitsOf (c : Char) (ns : List Nat) :
    ofUnits (unitsOf c ++ ns) = c :: ofUnits ns := by
  have hrange := toNat_range c
  unfold unitsOf
  split
  · rw [List.singleton_append, ofUnits_cons (by omega), Char.ofNat_toNat]
  · rename_i hbeyond
    generalize hm : c.toNat - 0x10000 = m
    have hhigh : isHighSurrogate (0xD800 + m / 0x400) = true := by
      simp only [isHighSurrogate, Bool.and_eq_true, decide_eq_true_eq]
      omega
    have hlow : isLowSurrogate (0xDC00 + m % 0x400) = true := by
      simp only [isLowSurrogate, Bool.and_eq_true, decide_eq_true_eq]
      omega
    have hpair : 0x10000 + (0xD800 + m / 0x400 - 0xD800) * 0x400 + (0xDC00 + m % 0x400 - 0xDC00) =
        c.toNat := by omega
    simp only [List.cons_append, List.nil_append, ofUnits, hhigh, hlow, Bool.and_self, if_true,
      hpair, Char.ofNat_toNat]

theorem ofUnits_flatMap (s : Text) : ofUnits (s.flatMap unitsOf) = s := by
  induction s with
  | nil => rfl
  | cons c rest ih => rw [List.flatMap_cons, ofUnits_unitsOf, ih]

/-! ## Escapes -/

theorem hexDigit?_digitChar {d : Nat} (h : d < 16) : hexDigit? (Nat.digitChar d) = some d := by
  have hall : ∀ d < 16, hexDigit? (Nat.digitChar d) = some d := by decide
  exact hall d h

/-- The last digit of a padded hexadecimal numeral. -/
theorem hexadecimal_succ (width n : Nat) : hexadecimal (width + 2) n =
    hexadecimal (width + 1) (n / 16) ++ [Nat.digitChar (n % 16)] := by
  have hdigits (m : Nat) := Nat.toDigits_eq_if (n := m) (show 1 < 16 by decide)
  unfold hexadecimal
  by_cases hn : n < 16
  · have hzero : n / 16 = 0 := by omega
    rw [hdigits n, if_pos hn, hzero, Nat.toDigits_zero, Nat.mod_eq_of_lt hn]
    simp only [List.length_singleton, Nat.add_sub_cancel]
    rw [← List.replicate_succ']
    rfl
  · have hpadding (length : Nat) : width + 2 - (length + 1) = width + 1 - length := by omega
    rw [hdigits n, if_neg hn]
    simp only [List.length_append, List.length_singleton, hpadding, List.append_assoc]

/-- The four hexadecimal digits of a number. -/
theorem hexadecimal_four {n : Nat} (h : n < 0x10000) :
    hexadecimal 4 n = [Nat.digitChar (n / 0x1000), Nat.digitChar (n / 0x100 % 16),
      Nat.digitChar (n / 0x10 % 16), Nat.digitChar (n % 16)] := by
  have hfirst : hexadecimal 1 (n / 16 / 16 / 16) = [Nat.digitChar (n / 16 / 16 / 16)] := by
    rw [hexadecimal, Nat.toDigits_of_lt_base (by omega)]
    rfl
  rw [hexadecimal_succ, hexadecimal_succ, hexadecimal_succ, hfirst]
  simp only [Nat.div_div_eq_div_mul, List.cons_append, List.nil_append]

/-- A code point is read from its escape. -/
theorem units?_escapeUnit {n : Nat} (h : n < 0x10000) (t : Text) :
    units? (escapeUnit n ++ t) = (units? t).map fun (ns, rest) => (n :: ns, rest) := by
  have hdigits : hexUnit? (Nat.digitChar (n / 0x1000)) (Nat.digitChar (n / 0x100 % 16))
      (Nat.digitChar (n / 0x10 % 16)) (Nat.digitChar (n % 16)) = some n := by
    have hsum : ((n / 0x1000 * 16 + n / 0x100 % 16) * 16 + n / 0x10 % 16) * 16 + n % 16 = n := by
      omega
    rw [hexUnit?, hexDigit?_digitChar (by omega), hexDigit?_digitChar (by omega),
      hexDigit?_digitChar (by omega), hexDigit?_digitChar (by omega)]
    simp [hsum]
  rw [escapeUnit, hexadecimal_four h]
  simp only [List.cons_append, List.nil_append, units?, hdigits]
  cases units? t <;> rfl

/-- A character is read from the letter that it is written as after a backslash. -/
theorem units?_letter {e c : Char} (he : escaped? e = some c) (hc : unitsOf c = [c.toNat])
    (t : Text) : units? (['\\', e] ++ t) =
      (units? t).map fun (ns, rest) => (unitsOf c ++ ns, rest) := by
  have hu : e ≠ 'u' := by
    rintro rfl
    cases he
  rw [hc]
  cases hrest : units? t <;> simp [units?, hu, he, hrest]

/-- A character that is written as itself is read. -/
theorem units?_plain {c : Char} (hquote : c ≠ '"') (hbackslash : c ≠ '\\')
    (h : 0x20 ≤ c.toNat ∧ c.toNat ≤ 0x7E) (t : Text) :
    units? ([c] ++ t) = (units? t).map fun (ns, rest) => (unitsOf c ++ ns, rest) := by
  have hcontrol : ¬ c.toNat ≤ 0x1F := by omega
  rw [unitsOf, if_pos (by omega), List.singleton_append]
  cases hrest : units? t <;> simp [units?, hbackslash, hcontrol, hrest]

/-- A character is read from what it is written as. -/
theorem units?_escape (c : Char) (t : Text) :
    units? (escape c ++ t) = (units? t).map fun (ns, rest) => (unitsOf c ++ ns, rest) := by
  unfold escape
  split
  · exact units?_letter rfl rfl t
  · exact units?_letter rfl rfl t
  · exact units?_letter rfl rfl t
  · exact units?_letter rfl rfl t
  · exact units?_letter rfl rfl t
  · exact units?_letter rfl rfl t
  · exact units?_letter rfl rfl t
  · rename_i hquote hbackslash _ _ _ _ _
    split
    · rename_i hplain
      exact units?_plain hquote hbackslash (by simpa using hplain) t
    · split
      · rename_i hbasic
        rw [units?_escapeUnit hbasic, unitsOf, if_pos hbasic]
        rfl
      · rename_i hbeyond
        have hrange := toNat_range c
        rw [List.append_assoc, units?_escapeUnit (by omega), units?_escapeUnit (by omega), unitsOf,
          if_neg hbeyond]
        cases units? t <;> rfl

theorem units?_flatMap_escape (s t : Text) :
    units? (s.flatMap escape ++ '"' :: t) = some (s.flatMap unitsOf, t) := by
  induction s with
  | nil => simp [units?]
  | cons c rest ih =>
    rw [List.flatMap_cons, List.append_assoc, units?_escape, ih, List.flatMap_cons]
    rfl

/-- A text is read from between its quotes, whatever follows them. -/
theorem unquote?_flatMap_escape (s t : Text) :
    unquote? (s.flatMap escape ++ '"' :: t) = some (s, t) := by
  simp only [unquote?, units?_flatMap_escape, Option.map_some, ofUnits_flatMap]

/-! ## What is written is ASCII -/

theorem toNat_digitChar_lt {d : Nat} (h : d < 16) : (Nat.digitChar d).toNat < 0x80 := by
  have hall : ∀ d < 16, (Nat.digitChar d).toNat < 0x80 := by decide
  exact hall d h

theorem isAscii_escapeUnit {n : Nat} (h : n < 0x10000) : IsAscii (escapeUnit n) := by
  rw [escapeUnit, hexadecimal_four h]
  simp only [isAscii_cons, isAscii_nil, and_true]
  exact ⟨by decide, by decide, toNat_digitChar_lt (by omega), toNat_digitChar_lt (by omega),
    toNat_digitChar_lt (by omega), toNat_digitChar_lt (by omega)⟩

theorem isAscii_escape (c : Char) : IsAscii (escape c) := by
  unfold escape
  split
  · simp
  · simp
  · simp
  · simp
  · simp
  · simp
  · simp
  · split
    · rename_i hplain
      obtain ⟨-, hle⟩ : 0x20 ≤ c.toNat ∧ c.toNat ≤ 0x7E := by simpa using hplain
      exact isAscii_cons.mpr ⟨Nat.lt_of_le_of_lt hle (by decide), isAscii_nil⟩
    · split
      · exact isAscii_escapeUnit ‹_›
      · have hrange := toNat_range c
        exact isAscii_append.mpr ⟨isAscii_escapeUnit (by omega), isAscii_escapeUnit (by omega)⟩

/-- A text is written between quotes in ASCII. -/
theorem isAscii_quoted (s : Text) : IsAscii (quoted s) := by
  have hescapes : IsAscii (s.flatMap escape) := by
    intro c hc
    obtain ⟨d, -, hd⟩ := List.mem_flatMap.mp hc
    exact isAscii_escape d c hd
  simp [quoted, hescapes]

end Json

end Gamebook
