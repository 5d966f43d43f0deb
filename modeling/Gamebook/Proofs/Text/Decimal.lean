import Gamebook.Text.Numeral
import Mathlib.Data.Nat.Digits.Defs
set_option autoImplicit false

/-!
# Decimal numerals

The numeral of a number has decimal digits only, the first of which is no zero unless it is
the only one, and its digits stand for the number again.
-/

namespace Gamebook.Text

/-! ## Digits -/

theorem toNat_of_isDigit {c : Char} (h : c.isDigit = true) :
    0x30 ≤ c.toNat ∧ c.toNat < 0x30 + 10 := by
  simp only [Char.isDigit, Bool.and_eq_true, decide_eq_true_eq] at h
  obtain ⟨hlow, hhigh⟩ := h
  have hlow' : 48 ≤ c.toNat := hlow
  have hhigh' : c.toNat ≤ 57 := hhigh
  omega

/-- The decimal digits that all scripts share have the values that they are written for. -/
theorem digitValue?_of_isDigit {c : Char} (h : c.isDigit = true) :
    digitValue? c = some (c.toNat - '0'.toNat) := by
  have hrange := toNat_of_isDigit h
  have hfind : digitZeros.find? (fun base => base ≤ c.toNat && c.toNat < base + 10) =
      some 0x30 := by
    rw [digitZeros, List.find?_cons_of_pos (by simpa using hrange)]
  rw [digitValue?, hfind]
  rfl

theorem lt_of_digitValue? {c : Char} {d : Nat} (h : digitValue? c = some d) : d < 10 := by
  rw [digitValue?, Option.map_eq_some_iff] at h
  obtain ⟨base, hbase, rfl⟩ := h
  have hrange := List.find?_some hbase
  simp only [Bool.and_eq_true, decide_eq_true_eq] at hrange
  omega

theorem foldl_digits_lt {digits : List Nat} (h : ∀ d ∈ digits, d < 10) (n : Nat) :
    digits.foldl (fun n d => 10 * n + d) n < (n + 1) * 10 ^ digits.length := by
  induction digits generalizing n with
  | nil => simp
  | cons d rest ih =>
    obtain ⟨hd, hrest⟩ := List.forall_mem_cons.mp h
    calc rest.foldl (fun n d => 10 * n + d) (10 * n + d)
        < (10 * n + d + 1) * 10 ^ rest.length := ih hrest _
      _ ≤ ((n + 1) * 10) * 10 ^ rest.length := Nat.mul_le_mul_right _ (by omega)
      _ = (n + 1) * 10 ^ (d :: rest).length := by
        rw [List.length_cons, Nat.pow_succ', Nat.mul_assoc]

/-- Digits stand for a number below a power of ten. -/
theorem ofDigits_lt {digits : List Nat} (h : ∀ d ∈ digits, d < 10) :
    ofDigits digits < 10 ^ digits.length := by
  have hlt := foldl_digits_lt h 0
  rwa [Nat.zero_add, Nat.one_mul] at hlt

/-! ## Numerals -/

theorem ofInt_natCast (n : Nat) : ofInt n = Nat.toDigits 10 n := by
  rw [ofInt, Int.toString_eq_repr]
  exact Nat.toList_repr

theorem ofInt_negSucc (n : Nat) : ofInt (.negSucc n) = '-' :: Nat.toDigits 10 (n + 1) := by
  rw [ofInt, Int.toString_eq_repr]
  show ("-" ++ (n + 1).repr).toList = _
  rw [String.toList_append, Nat.toList_repr]
  rfl

theorem isDigit_of_mem_toDigits {n : Nat} {c : Char} (h : c ∈ Nat.toDigits 10 n) :
    c.isDigit = true := Nat.isDigit_of_mem_toDigits (by decide) (by decide) h

theorem filterMap_digitValue? {s : Text} (h : ∀ c ∈ s, c.isDigit = true) :
    s.filterMap digitValue? = s.map fun c => c.toNat - '0'.toNat := by
  induction s with
  | nil => rfl
  | cons c rest ih =>
    obtain ⟨hc, hrest⟩ := List.forall_mem_cons.mp h
    rw [List.filterMap_cons_some (digitValue?_of_isDigit hc), ih hrest, List.map_cons]

/-- The digits of a numeral stand for its number. -/
theorem ofDigits_toDigits (n : Nat) :
    ofDigits ((Nat.toDigits 10 n).filterMap digitValue?) = n := by
  rw [filterMap_digitValue? fun c hc => isDigit_of_mem_toDigits hc, ofDigits, List.foldl_map,
    ← Nat.ofDigitChars_eq_foldl]
  exact Nat.ofDigitChars_toDigits (by decide) (by decide)

/-- A numeral with no more digits than are converted is converted to its number. -/
theorem convert_toDigits {n : Nat} (h : n < 10 ^ Overlong.limit) :
    convert ((Nat.toDigits 10 n).filterMap digitValue?) = .ok n := by
  have hlength : ((Nat.toDigits 10 n).filterMap digitValue?).length ≤ Overlong.limit := by
    rw [filterMap_digitValue? fun c hc => isDigit_of_mem_toDigits hc, List.length_map]
    exact (Nat.length_toDigits_le_iff (by decide) (by decide)).mpr h
  rw [convert, if_pos hlength, ofDigits_toDigits]

/-- What is converted has no more digits than that. -/
theorem lt_of_convert {s : Text} {n : Nat} (h : convert (s.filterMap digitValue?) = .ok n) :
    n < 10 ^ Overlong.limit := by
  rw [convert] at h
  split at h
  · rename_i hlength
    obtain rfl := Except.ok.inj h
    refine Nat.lt_of_lt_of_le (ofDigits_lt ?_) (Nat.pow_le_pow_right (by decide) hlength)
    intro d hd
    obtain ⟨c, -, hc⟩ := List.mem_filterMap.mp hd
    exact lt_of_digitValue? hc
  · cases h

/-- Only the numeral of zero starts with a zero. -/
theorem head?_toDigits_ne_zero {n : Nat} (h : n ≠ 0) : (Nat.toDigits 10 n).head? ≠ some '0' := by
  induction n using Nat.strongRecOn with
  | ind n ih =>
    rw [Nat.toDigits_eq_if (by decide)]
    split
    · rename_i hlt
      have hdigit : ∀ d < 10, d ≠ 0 → Nat.digitChar d ≠ '0' := by decide
      simpa using hdigit n hlt h
    · rename_i hge
      have hrest := ih (n / 10) (by omega) (by omega)
      cases hfront : Nat.toDigits 10 (n / 10) with
      | nil => exact absurd hfront Nat.toDigits_ne_nil
      | cons c rest =>
        rw [hfront] at hrest
        exact hrest

end Gamebook.Text
