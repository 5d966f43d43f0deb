import Gamebook.Proofs.Text.Numeral
import Gamebook.Room
set_option autoImplicit false

/-!
# Weights as they are written

A weight is written as a plain numeral, and every text of another form is no weight at all.
-/

namespace Gamebook

open Text

/-- A text with no more digits than are converted has a weight or has none. -/
theorem exists_weightOfText {s : Text} (h : countDigits s ≤ Overlong.limit) :
    ∃ weight, weightOfText s = .ok weight := by
  rw [weightOfText]
  cases hnumeral : plainNumeral? s with
  | none => exact ⟨none, rfl⟩
  | some numeral =>
    obtain ⟨negative, values⟩ := numeral
    rw [countDigits_of_plainNumeral? hnumeral] at h
    simp only [convert, if_pos h]
    exact ⟨_, rfl⟩

/-- The weight is read off the sign and the digits of a numeral. -/
theorem weightOfText_eq_some_iff {s : Text} {n : Nat} : weightOfText s = .ok (some n) ↔
    ∃ negative values, plainNumeral? s = some (negative, values) ∧
      values.length ≤ Overlong.limit ∧ n = ofDigits values ∧ (negative = true → n = 0) := by
  constructor
  · intro h
    rw [weightOfText] at h
    split at h
    · cases h
    · rename_i negative values hnumeral
      by_cases hlength : values.length ≤ Overlong.limit
      · simp only [convert, if_pos hlength, Except.ok.injEq] at h
        split at h
        · cases h
        · rename_i hsign
          obtain rfl := Option.some.inj h
          exact ⟨negative, values, hnumeral, hlength, rfl, by simpa using hsign⟩
      · simp only [convert, if_neg hlength, reduceCtorEq] at h
  · rintro ⟨negative, values, hnumeral, hlength, rfl, hsign⟩
    simp only [weightOfText, hnumeral, convert, if_pos hlength]
    rw [if_neg (by simpa using hsign)]

/-- A text with no more digits than are converted has the weight of which it is a numeral. -/
theorem weightOfText_iff_isNumeral {s : Text} (h : countDigits s ≤ Overlong.limit) {n : Nat} :
    weightOfText s = .ok (some n) ↔ IsNumeral s n := by
  rw [weightOfText_eq_some_iff, isNumeral_iff]
  constructor
  · rintro ⟨negative, values, hnumeral, -, hn, hsign⟩
    exact ⟨negative, values, hnumeral, hn, hsign⟩
  · rintro ⟨negative, values, hnumeral, hn, hsign⟩
    refine ⟨negative, values, hnumeral, ?_, hn, hsign⟩
    rwa [← countDigits_of_plainNumeral? hnumeral]

/-- A weight with no more than 4300 digits is the number of which it is written as a numeral: an
optional sign and digits of any scripts, one at least, that have this value in base ten, where a
minus stands before nothing but zero.  Any other text is no weight.  So the numeral of a number
is its weight, also with zeros before it, with a plus, and with its digits in other scripts. -/
theorem weight_iff_isNumeral (text target : Text) :
    (∀ s, countDigits s ≤ Overlong.limit →
      (∀ n, (⟨text, target, some s⟩ : Choice).weight = .ok (some n) ↔ IsNumeral s n) ∧
      ((¬ ∃ n, IsNumeral s n) → (⟨text, target, some s⟩ : Choice).weight = .ok none)) ∧
    ∀ n zeros, n < 10 ^ Overlong.limit →
      (0 < zeros → zeros + (ofNat n).length ≤ Overlong.limit) →
      ∀ sign ∈ [[], ['+']], ∀ digits, SameDigits digits (List.replicate zeros '0' ++ ofNat n) →
        (⟨text, target, some (sign ++ digits)⟩ : Choice).weight = .ok (some n) := by
  refine ⟨?_, ?_⟩
  · intro s hs
    refine ⟨fun n => weightOfText_iff_isNumeral hs, fun hnone => ?_⟩
    obtain ⟨weight, hweight⟩ := exists_weightOfText hs
    cases weight with
    | none => exact hweight
    | some n => exact absurd ⟨n, (weightOfText_iff_isNumeral hs).mp hweight⟩ hnone
  · intro n zeros hn hzeros sign hsign digits hdigits
    have hspells : Spells digits n := hdigits.spells (spells_padded zeros n)
    have hlength : digits.length ≤ Overlong.limit := by
      have hnumeral : (ofNat n).length ≤ Overlong.limit := by
        rw [ofNat, ofInt_natCast]
        exact (Nat.length_toDigits_le_iff (by decide) (by decide)).mpr hn
      rw [hdigits.length_eq, List.length_append, List.length_replicate]
      omega
    have hcount : countDigits digits ≤ Overlong.limit := by rwa [hspells.countDigits]
    rcases List.mem_pair.mp hsign with rfl | rfl
    · exact (weightOfText_iff_isNumeral hcount).mpr (.unsigned hspells)
    · refine (weightOfText_iff_isNumeral ?_).mpr (.plus hspells)
      rwa [List.singleton_append, countDigits_sign (.inl rfl)]

/-- Forty-two with a plus, a zero and a digit of another script, and seven after zeros of two
scripts. -/
theorem weight_iff_isNumeral_mixed :
    countDigits "+0\u06642".toList ≤ Overlong.limit ∧ IsNumeral "+0\u06642".toList 42 ∧
      SameDigits "\u06600\uff17".toList (List.replicate 2 '0' ++ ofNat 7) ∧
      (⟨[], [], some ("+".toList ++ "\u06600\uff17".toList)⟩ : Choice).weight = .ok (some 7) := by
  have hcount : countDigits "+0\u06642".toList ≤ Overlong.limit := by decide
  have hread := ((weight_iff_isNumeral [] []).1 _ hcount).1 42
  have hsame : SameDigits "\u06600\uff17".toList (List.replicate 2 '0' ++ ofNat 7) := by
    have hzero : ∀ c ∈ ['\u0660', '0'], IsDigit c 0 := by
      intro c hc
      rcases List.mem_pair.mp hc with rfl | rfl <;> exact digitValue?_eq_some_iff.mp rfl
    refine .cons ⟨0, hzero _ (by decide), hzero _ (by decide)⟩
      (.cons ⟨0, hzero _ (by decide), hzero _ (by decide)⟩ (.cons ⟨7, ?_, ?_⟩ .nil))
    · exact digitValue?_eq_some_iff.mp rfl
    · exact digitValue?_eq_some_iff.mp rfl
  have hsmall : 7 < 10 ^ Overlong.limit :=
    Nat.lt_of_lt_of_le (by decide : 7 < 10 ^ 1) (Nat.pow_le_pow_right (by decide) (by decide))
  exact ⟨hcount, hread.mp rfl, hsame,
    (weight_iff_isNumeral [] []).2 7 2 hsmall (fun _ => by decide) _ (by decide) _ hsame⟩

end Gamebook
