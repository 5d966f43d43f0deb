import Gamebook.Proofs.Text.Decimal
import Mathlib.Data.List.Forall2
import Mathlib.Data.List.Pairwise
import Mathlib.Data.Nat.Digits.Lemmas
set_option autoImplicit false

/-!
# Plain numerals

A plain numeral is made of decimal digits of whatever scripts, with a sign before them if the
writer likes, and of nothing else.  It stands for the number that its digits have in base ten,
where a minus makes a number that is not negative of nothing but zero.  So zeros in front, a
plus, and the choice of the scripts are free.
-/

namespace Gamebook.Text

/-! ## Digits of all scripts -/

/-- The ten digits of one script end before those of the next script start. -/
theorem pairwise_digitZeros : digitZeros.Pairwise fun base next => base + 10 ≤ next := by
  decide

/-- The character is the decimal digit of some script with this value. -/
def IsDigit (c : Char) (d : Nat) : Prop := d < 10 ∧ ∃ base ∈ digitZeros, c.toNat = base + d

/-- Two scripts share no digit. -/
theorem digitZeros_unique {base other n : Nat} (hbase : base ∈ digitZeros)
    (hother : other ∈ digitZeros) (h : base ≤ n ∧ n < base + 10) (h' : other ≤ n ∧ n < other + 10) :
    base = other := by
  have hapart : ∀ x ∈ digitZeros, ∀ y ∈ digitZeros, x = y ∨ x + 10 ≤ y ∨ y + 10 ≤ x := by
    have : Std.Symm fun x y : Nat => x = y ∨ x + 10 ≤ y ∨ y + 10 ≤ x := ⟨by omega⟩
    exact List.Pairwise.forall_of_forall (fun x _ => .inl rfl)
      (pairwise_digitZeros.imp fun hle => .inr (.inl hle))
  have := hapart base hbase other hother
  omega

theorem digitValue?_eq_some_iff {c : Char} {d : Nat} : digitValue? c = some d ↔ IsDigit c d := by
  constructor
  · intro h
    refine ⟨lt_of_digitValue? h, ?_⟩
    rw [digitValue?, Option.map_eq_some_iff] at h
    obtain ⟨base, hfind, rfl⟩ := h
    have hrange := List.find?_some hfind
    simp only [Bool.and_eq_true, decide_eq_true_eq] at hrange
    exact ⟨base, List.mem_of_find?_eq_some hfind, by omega⟩
  · intro h
    obtain ⟨hd, base, hbase, hc⟩ := h
    cases hfind : digitZeros.find? fun base => base ≤ c.toNat && c.toNat < base + 10 with
    | none =>
      have hnot := List.find?_eq_none.mp hfind base hbase
      simp only [Bool.and_eq_true, decide_eq_true_eq] at hnot
      omega
    | some other =>
      have hrange := List.find?_some hfind
      simp only [Bool.and_eq_true, decide_eq_true_eq] at hrange
      obtain rfl : base = other :=
        digitZeros_unique hbase (List.mem_of_find?_eq_some hfind) (by omega) hrange
      rw [digitValue?, hfind, Option.map_some]
      congr 1
      omega

/-! ## Digits in base ten -/

/-- The number that digits stand for is the sum of their values at their places. -/
theorem ofDigits_eq (values : List Nat) : ofDigits values = Nat.ofDigits 10 values.reverse := by
  rw [Nat.ofDigits_eq_foldr, List.foldr_reverse, ofDigits]
  congr 1
  funext n d
  simp only [Nat.cast_id]
  omega

/-- The text consists of digits, one at least, that have this value in base ten. -/
def Spells (digits : Text) (n : Nat) : Prop :=
  digits ≠ [] ∧ ∃ values, List.Forall₂ IsDigit digits values ∧ n = Nat.ofDigits 10 values.reverse

theorem mapM_digitValue?_eq_some_iff {s : Text} {values : List Nat} :
    s.mapM digitValue? = some values ↔ List.Forall₂ IsDigit s values := by
  induction s generalizing values with
  | nil => simp [eq_comm]
  | cons c rest ih =>
    simp only [List.mapM_cons, Option.bind_eq_bind, Option.bind_eq_some_iff, Option.pure_def,
      Option.some_inj, digitValue?_eq_some_iff, ih, List.forall₂_cons_left_iff]
    grind

theorem digits?_eq_some_iff {s : Text} {values : List Nat} :
    digits? s = some values ↔ s ≠ [] ∧ List.Forall₂ IsDigit s values := by
  cases s with
  | nil => simp [digits?]
  | cons c rest =>
    rw [digits?, mapM_digitValue?_eq_some_iff]
    · simp
    · simp

/-! ## Plain numerals -/

/-- The text is a plain numeral of the number. -/
inductive IsNumeral : Text → Nat → Prop where
  | unsigned {digits : Text} {n : Nat} (spells : Spells digits n) : IsNumeral digits n
  | plus {digits : Text} {n : Nat} (spells : Spells digits n) : IsNumeral ('+' :: digits) n
  /-- zero is the only number that is not negative with a minus before it -/
  | minus {digits : Text} (spells : Spells digits 0) : IsNumeral ('-' :: digits) 0

/-- A sign is no digit. -/
theorem takeSign_of_digits {digits : Text} {values : List Nat}
    (h : List.Forall₂ IsDigit digits values) : takeSign digits = (false, digits) := by
  cases h with
  | nil => rfl
  | @cons c d rest more hc hrest =>
    have hvalue := digitValue?_eq_some_iff.mpr hc
    have hminus : digitValue? '-' = none := by decide
    have hplus : digitValue? '+' = none := by decide
    rw [takeSign]
    · rintro rest' ⟨rfl, rfl⟩
      cases hminus.symm.trans hvalue
    · rintro rest' ⟨rfl, rfl⟩
      cases hplus.symm.trans hvalue

/-- The sign and the digits of a plain numeral are read off it. -/
theorem plainNumeral?_eq_some_iff {s : Text} {negative : Bool} {values : List Nat} :
    plainNumeral? s = some (negative, values) ↔
      ∃ digits ≠ [], List.Forall₂ IsDigit digits values ∧
        (negative = false ∧ (s = digits ∨ s = '+' :: digits) ∨
          negative = true ∧ s = '-' :: digits) := by
  constructor
  · intro h
    rw [plainNumeral?, Option.map_eq_some_iff] at h
    obtain ⟨values', hvalues, heq⟩ := h
    obtain ⟨hnegative, rfl⟩ := Prod.mk.inj heq
    obtain ⟨hne, hdigits⟩ := digits?_eq_some_iff.mp hvalues
    refine ⟨(takeSign s).2, hne, hdigits, ?_⟩
    rw [← hnegative]
    fun_cases takeSign s with
    | case1 rest => exact .inr ⟨rfl, rfl⟩
    | case2 rest => exact .inl ⟨rfl, .inr rfl⟩
    | case3 => exact .inl ⟨rfl, .inl rfl⟩
  · intro h
    obtain ⟨digits, hne, hdigits, h⟩ := h
    have hvalues := digits?_eq_some_iff.mpr ⟨hne, hdigits⟩
    rcases h with ⟨rfl, rfl | rfl⟩ | ⟨rfl, rfl⟩
    · simp only [plainNumeral?, takeSign_of_digits hdigits, hvalues, Option.map_some]
    · simp only [plainNumeral?, takeSign, hvalues, Option.map_some]
    · simp only [plainNumeral?, takeSign, hvalues, Option.map_some]

/-- A text is a numeral of what its digits stand for, if a minus is before nothing but zeros. -/
theorem isNumeral_iff {s : Text} {n : Nat} : IsNumeral s n ↔
    ∃ negative values, plainNumeral? s = some (negative, values) ∧ n = ofDigits values ∧
      (negative = true → n = 0) := by
  simp only [plainNumeral?_eq_some_iff, ofDigits_eq]
  constructor
  · intro h
    cases h with
    | unsigned spells =>
      obtain ⟨hne, values, hdigits, hn⟩ := spells
      exact ⟨false, values, ⟨_, hne, hdigits, .inl ⟨rfl, .inl rfl⟩⟩, hn, nofun⟩
    | plus spells =>
      obtain ⟨hne, values, hdigits, hn⟩ := spells
      exact ⟨false, values, ⟨_, hne, hdigits, .inl ⟨rfl, .inr rfl⟩⟩, hn, nofun⟩
    | minus spells =>
      obtain ⟨hne, values, hdigits, hn⟩ := spells
      exact ⟨true, values, ⟨_, hne, hdigits, .inr ⟨rfl, rfl⟩⟩, hn, fun _ => rfl⟩
  · rintro ⟨negative, values, ⟨digits, hne, hdigits, hform⟩, hn, hsign⟩
    have hspells : Spells digits n := ⟨hne, values, hdigits, hn⟩
    rcases hform with ⟨-, rfl | rfl⟩ | ⟨hnegative, rfl⟩
    · exact .unsigned hspells
    · exact .plus hspells
    · obtain rfl := hsign hnegative
      exact .minus hspells

/-! ## How many digits there are -/

/-- The digits of a text, whatever else is in it. -/
def countDigits (s : Text) : Nat := s.countP fun c => (digitValue? c).isSome

theorem countDigits_of_digits {digits : Text} {values : List Nat}
    (h : List.Forall₂ IsDigit digits values) : countDigits digits = values.length := by
  induction h with
  | nil => rfl
  | @cons c d rest more hc hrest ih =>
    have hdigit : (digitValue? c).isSome = true := by
      rw [digitValue?_eq_some_iff.mpr hc]
      rfl
    rw [countDigits, List.countP_cons, if_pos hdigit, List.length_cons, ← ih, countDigits]

theorem countDigits_sign {sign : Char} (h : sign = '+' ∨ sign = '-') (s : Text) :
    countDigits (sign :: s) = countDigits s := by
  have hsign : ¬ (digitValue? sign).isSome = true := by
    rcases h with rfl | rfl <;> decide
  exact List.countP_cons_of_neg hsign

/-- A plain numeral has no digits but those that are read. -/
theorem countDigits_of_plainNumeral? {s : Text} {negative : Bool} {values : List Nat}
    (h : plainNumeral? s = some (negative, values)) : countDigits s = values.length := by
  obtain ⟨digits, -, hdigits, ⟨-, rfl | rfl⟩ | ⟨-, rfl⟩⟩ := plainNumeral?_eq_some_iff.mp h
  · exact countDigits_of_digits hdigits
  · rw [countDigits_sign (.inl rfl), countDigits_of_digits hdigits]
  · rw [countDigits_sign (.inr rfl), countDigits_of_digits hdigits]

/-! ## Numerals that are written -/

/-- The digits of the same values, in whatever scripts. -/
def SameDigits : Text → Text → Prop :=
  List.Forall₂ fun c other => ∃ d, IsDigit c d ∧ IsDigit other d

/-- Digits stand for the same number in all scripts. -/
theorem SameDigits.spells {digits other : Text} {n : Nat} (h : SameDigits digits other)
    (hother : Spells other n) : Spells digits n := by
  obtain ⟨hne, values, hvalues, hn⟩ := hother
  refine ⟨?_, values, ?_, hn⟩
  · rintro rfl
    cases h
    exact hne rfl
  · clear hne hn
    induction h generalizing values with
    | nil => exact hvalues
    | cons hc hrest ih =>
      obtain ⟨d, hd, hd'⟩ := hc
      cases hvalues with
      | cons hvalue hmore =>
        obtain rfl := Option.some.inj
          ((digitValue?_eq_some_iff.mpr hd').symm.trans (digitValue?_eq_some_iff.mpr hvalue))
        exact .cons hd (ih _ hmore)

theorem spells_of_isDigit {s : Text} (hne : s ≠ []) (h : ∀ c ∈ s, c.isDigit = true) :
    Spells s (ofDigits (s.map fun c => c.toNat - '0'.toNat)) := by
  refine ⟨hne, _, ?_, ofDigits_eq _⟩
  rw [List.forall₂_map_right_iff, List.forall₂_same]
  exact fun c hc => digitValue?_eq_some_iff.mp (digitValue?_of_isDigit (h c hc))

/-- Zeros before a numeral change nothing. -/
theorem spells_padded (zeros n : Nat) : Spells (List.replicate zeros '0' ++ ofNat n) n := by
  have hnumeral : ∀ c ∈ ofNat n, c.isDigit = true := by
    rw [ofNat, ofInt_natCast]
    exact fun c hc => isDigit_of_mem_toDigits hc
  have hall : ∀ c ∈ List.replicate zeros '0' ++ ofNat n, c.isDigit = true := by
    intro c hc
    rcases List.mem_append.mp hc with hc | hc
    · rw [List.eq_of_mem_replicate hc]
      rfl
    · exact hnumeral c hc
  have hne : List.replicate zeros '0' ++ ofNat n ≠ [] := by
    rw [ofNat, ofInt_natCast]
    exact List.append_ne_nil_of_right_ne_nil _ Nat.toDigits_ne_nil
  have hvalue : ofDigits ((ofNat n).map fun c => c.toNat - '0'.toNat) = n := by
    rw [← filterMap_digitValue? hnumeral, ofNat, ofInt_natCast]
    exact ofDigits_toDigits n
  have hspells := spells_of_isDigit hne hall
  rwa [List.map_append, List.map_replicate, Nat.sub_self, ofDigits_eq, List.reverse_append,
    List.reverse_replicate, Nat.ofDigits_append_replicate_zero, ← ofDigits_eq, hvalue] at hspells

/-- Digits of whatever scripts are all the digits that there are. -/
theorem Spells.countDigits {digits : Text} {n : Nat} (h : Spells digits n) :
    countDigits digits = digits.length := by
  obtain ⟨-, values, hdigits, -⟩ := h
  rw [countDigits_of_digits hdigits, hdigits.length_eq]

end Gamebook.Text
