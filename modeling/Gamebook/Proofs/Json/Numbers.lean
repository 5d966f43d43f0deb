import Gamebook.Json.Reader
import Gamebook.Proofs.Json.Strings
import Gamebook.Proofs.Text.Decimal
set_option autoImplicit false

/-!
# JSON integers that are read back

An integer is read from its numeral when what follows does not go on with the number, and when
the numeral is not too long.  No other integers are read from any text, so that what has been
read can be read again.
-/

namespace Gamebook.Json

open Text

/-! ## Numerals -/

/-- What follows a number does not go on with it. -/
def EndsNumber (s : Text) : Prop :=
  ∀ c ∈ s.head?, c.isDigit = false ∧ c ≠ '.' ∧ c ≠ 'e' ∧ c ≠ 'E'

variable {s t : Text} {n : Int}

theorem spanDigits_append (hs : ∀ c ∈ s, c.isDigit = true) (ht : EndsNumber t) :
    spanDigits (s ++ t) = (s, t) := by
  have htake : t.takeWhile Char.isDigit = [] := by
    cases t with
    | nil => rfl
    | cons c rest => simp [(ht c rfl).1]
  have hdrop : t.dropWhile Char.isDigit = t := by
    cases t with
    | nil => rfl
    | cons c rest => simp [(ht c rfl).1]
  rw [spanDigits, List.takeWhile_append_of_pos hs, List.dropWhile_append_of_pos hs, htake, hdrop,
    List.append_nil]

/-- The numeral of a natural number is its own integral part. -/
theorem integral?_toDigits (m : Nat) (ht : EndsNumber t) :
    integral? (Nat.toDigits 10 m ++ t) = some (Nat.toDigits 10 m, t) := by
  by_cases hzero : m = 0
  · obtain rfl := hzero
    rfl
  · have hhead := head?_toDigits_ne_zero hzero
    have hspan : spanDigits (Nat.toDigits 10 m ++ t) = (Nat.toDigits 10 m, t) :=
      spanDigits_append (fun c hc => isDigit_of_mem_toDigits hc) ht
    cases hdigits : Nat.toDigits 10 m with
    | nil => exact absurd hdigits Nat.toDigits_ne_nil
    | cons d rest =>
      rw [hdigits] at hhead hspan
      have hd : d ≠ '0' := fun h => hhead (congrArg some h)
      rw [List.cons_append] at hspan ⊢
      rw [integral?]
      · simp only [hspan]
      · intro _ h
        exact hd (List.cons.inj h).1

theorem afterFraction?_of_endsNumber (ht : EndsNumber t) : afterFraction? t = none := by
  unfold afterFraction?
  split
  · exact absurd rfl (ht _ rfl).2.1
  · rfl

theorem afterExponent?_of_endsNumber (ht : EndsNumber t) : afterExponent? t = none := by
  unfold afterExponent?
  split
  · rename_i c rest
    rw [if_neg (not_or.mpr ⟨(ht c rfl).2.2.1, (ht c rfl).2.2.2⟩)]
  · rfl

/-- An integer is read from its numeral. -/
theorem number?_ofInt (hn : n.natAbs < 10 ^ Overlong.limit) (ht : EndsNumber t) :
    number? (ofInt n ++ t) = some (.integer n, t) := by
  cases n with
  | ofNat m =>
    have hm : m < 10 ^ Overlong.limit := hn
    have hnumeral : ofInt (.ofNat m) = Nat.toDigits 10 m := ofInt_natCast m
    have hintegral := integral?_toDigits m ht
    rw [hnumeral]
    cases hdigits : Nat.toDigits 10 m with
    | nil => exact absurd hdigits Nat.toDigits_ne_nil
    | cons d rest =>
      have hd : d ≠ '-' := by
        rintro rfl
        have hminus : '-'.isDigit = true := isDigit_of_mem_toDigits (hdigits ▸ List.mem_cons_self)
        cases hminus
      have hconvert := convert_toDigits hm
      rw [hdigits, List.cons_append] at hintegral
      rw [hdigits] at hconvert
      simp [number?, hd, hintegral, afterFraction?_of_endsNumber ht,
        afterExponent?_of_endsNumber ht, hconvert]
  | negSucc m =>
    have hm : m + 1 < 10 ^ Overlong.limit := hn
    rw [ofInt_negSucc, List.cons_append]
    simp only [number?, integral?_toDigits _ ht, afterFraction?_of_endsNumber ht,
      afterExponent?_of_endsNumber ht, convert_toDigits hm]
    rfl

/-! ## Values -/

theorem ne_of_isDigit {c d : Char} (hd : d.isDigit = true) (hc : c.isDigit = false) : c ≠ d := by
  rintro rfl
  rw [hd] at hc
  cases hc

/-- A numeral starts with a digit, perhaps after a minus. -/
theorem ofInt_cases (n : Int) : ∃ d rest, d.isDigit = true ∧
    (ofInt n = d :: rest ∨ ofInt n = '-' :: d :: rest) := by
  have hdigits (m : Nat) : ∃ d rest, d.isDigit = true ∧ Nat.toDigits 10 m = d :: rest := by
    cases hm : Nat.toDigits 10 m with
    | nil => exact absurd hm Nat.toDigits_ne_nil
    | cons d rest => exact ⟨d, rest, isDigit_of_mem_toDigits (hm ▸ List.mem_cons_self), rfl⟩
  cases n with
  | ofNat m =>
    obtain ⟨d, rest, hd, hm⟩ := hdigits m
    exact ⟨d, rest, hd, .inl ((ofInt_natCast m).trans hm)⟩
  | negSucc m =>
    obtain ⟨d, rest, hd, hm⟩ := hdigits (m + 1)
    exact ⟨d, rest, hd, .inr (by rw [ofInt_negSucc, hm])⟩

/-- An integer is written in ASCII. -/
theorem isAscii_ofInt (n : Int) : IsAscii (ofInt n) := by
  have hdigits (m : Nat) : IsAscii (Nat.toDigits 10 m) := fun c hc =>
    Nat.lt_trans (toNat_of_isDigit (isDigit_of_mem_toDigits hc)).2 (by decide)
  cases n with
  | ofNat m => exact ofInt_natCast m ▸ hdigits m
  | negSucc m => exact ofInt_negSucc m ▸ List.forall_mem_cons.mpr ⟨by decide, hdigits (m + 1)⟩

/-- No word is read from a numeral. -/
theorem scalar?_ofInt (n : Int) (t : Text) : scalar? (ofInt n ++ t) = number? (ofInt n ++ t) := by
  have hwords : words = [(['n', 'u', 'l', 'l'], .null), (['t', 'r', 'u', 'e'], .boolean true),
      (['f', 'a', 'l', 's', 'e'], .boolean false), (['N', 'a', 'N'], .real),
      (['I', 'n', 'f', 'i', 'n', 'i', 't', 'y'], .real),
      (['-', 'I', 'n', 'f', 'i', 'n', 'i', 't', 'y'], .real)] := rfl
  obtain ⟨d, rest, hd, hn | hn⟩ := ofInt_cases n
  · simp [scalar?, hwords, hn, after?, ne_of_isDigit hd]
  · simp [scalar?, hwords, hn, after?, ne_of_isDigit hd]

/-- An integer is read where a value is expected. -/
theorem value?_ofInt (depth : Nat) (hn : n.natAbs < 10 ^ Overlong.limit) (ht : EndsNumber t) :
    value? (depth + 1) (ofInt n ++ t) = some (.integer n, t) := by
  rw [← number?_ofInt hn ht, ← scalar?_ofInt]
  obtain ⟨d, rest, hd, hn | hn⟩ := ofInt_cases n
  · have hquote : d ≠ '"' := (ne_of_isDigit hd rfl).symm
    have hbracket : d ≠ '[' := (ne_of_isDigit hd rfl).symm
    have hbrace : d ≠ '\x7b' := (ne_of_isDigit hd rfl).symm
    rw [hn]
    simp [value?, hquote, hbracket, hbrace]
  · rw [hn]
    simp [value?]

/-- A text is read where a value is expected. -/
theorem value?_quoted (depth : Nat) (s t : Text) :
    value? (depth + 1) (quoted s ++ t) = some (.text s, t) := by
  have hquoted : quoted s ++ t = '"' :: (s.flatMap escape ++ '"' :: t) := by simp [quoted]
  rw [hquoted]
  simp only [value?, unquote?_flatMap_escape, Option.map_some]

/-! ## Bounds -/

theorem natAbs_lt_of_number? {rest : Text} (h : number? s = some (.integer n, rest)) :
    n.natAbs < 10 ^ Overlong.limit := by
  unfold number? at h
  dsimp only at h
  split at h
  · cases h
  · split at h
    · cases h
    · split at h
      · cases h
      · split at h
        · cases h
        · rename_i m hm
          have hlt := lt_of_convert hm
          rw [Option.some.injEq, Prod.mk.injEq, Json.integer.injEq] at h
          have hsign (negative : Bool) : (if negative then -(m : Int) else m).natAbs = m := by
            cases negative <;> simp
          rw [← h.1, hsign]
          exact hlt

theorem number?_ne_object {ms : List (Text × Json)} {rest : Text} :
    number? s ≠ some (.object ms, rest) := by
  unfold number?
  dsimp only
  split
  · simp
  · split
    · simp
    · split
      · simp
      · split <;> simp

/-- What is no word is a number. -/
theorem scalar?_cases {v : Json} {rest : Text} (h : scalar? s = some (v, rest)) :
    (∃ word, (word, v) ∈ words) ∨ number? s = some (v, rest) := by
  unfold scalar? at h
  split at h
  · rename_i found hfound
    obtain ⟨⟨word, value⟩, hword, hafter⟩ := List.exists_of_findSome?_eq_some hfound
    rw [h, Option.map_eq_some_iff] at hafter
    obtain ⟨tail, -, hvalue⟩ := hafter
    exact .inl ⟨word, (Prod.mk.inj hvalue).1 ▸ hword⟩
  · exact .inr h

/-- A word or a number is no object. -/
theorem scalar?_ne_object {ms : List (Text × Json)} {rest : Text} :
    scalar? s ≠ some (.object ms, rest) := by
  intro h
  rcases scalar?_cases h with ⟨word, hword⟩ | hnumber
  · simp [words] at hword
  · exact number?_ne_object hnumber

theorem natAbs_lt_of_scalar? {rest : Text} (h : scalar? s = some (.integer n, rest)) :
    n.natAbs < 10 ^ Overlong.limit := by
  rcases scalar?_cases h with ⟨word, hword⟩ | hnumber
  · simp [words] at hword
  · exact natAbs_lt_of_number? hnumber

theorem natAbs_lt_of_value? {depth : Nat} {rest : Text}
    (h : value? depth s = some (.integer n, rest)) : n.natAbs < 10 ^ Overlong.limit := by
  cases depth with
  | zero => simp [value?] at h
  | succ depth =>
    unfold value? at h
    split at h
    · simp at h
    · split at h <;> simp at h
    · split at h <;> simp at h
    · exact natAbs_lt_of_scalar? h

theorem natAbs_lt_of_members? {depth : Nat} {name rest : Text} {ms : List (Text × Json)}
    (h : members? depth s = some (ms, rest)) (hmem : (name, .integer n) ∈ ms) :
    n.natAbs < 10 ^ Overlong.limit := by
  induction depth generalizing s ms rest with
  | zero => simp [members?] at h
  | succ depth ih =>
    unfold members? at h
    split at h
    · split at h
      · cases h
      · split at h
        · split at h
          · cases h
          · rename_i value after hvalue
            split at h
            · rw [Option.some.injEq, Prod.mk.injEq] at h
              rw [← h.1, List.mem_singleton, Prod.mk.injEq] at hmem
              rw [← hmem.2] at hvalue
              exact natAbs_lt_of_value? hvalue
            · rw [Option.map_eq_some_iff] at h
              obtain ⟨⟨more, last⟩, hmore, hms⟩ := h
              rw [← (Prod.mk.inj hms).1, List.mem_cons, Prod.mk.injEq] at hmem
              rcases hmem with ⟨-, hfirst⟩ | hrest
              · rw [← hfirst] at hvalue
                exact natAbs_lt_of_value? hvalue
              · exact ih hmore hrest
            · cases h
        · cases h
    · cases h

/-- The integers in an object that is read have numerals that can be read. -/
theorem natAbs_lt_of_ofText? {name : Text} {ms : List (Text × Json)}
    (h : ofText? s = some (.object ms)) (hmem : (name, .integer n) ∈ ms) :
    n.natAbs < 10 ^ Overlong.limit := by
  unfold ofText? at h
  split at h
  · cases h
  · rename_i value rest hvalue
    split at h
    · obtain rfl := Option.some.inj h
      unfold value? at hvalue
      split at hvalue
      · simp at hvalue
      · split at hvalue <;> simp at hvalue
      · split at hvalue
        · obtain ⟨rfl, -⟩ : ms = [] ∧ _ = rest := by simpa [eq_comm] using hvalue
          cases hmem
        · rw [Option.map_eq_some_iff] at hvalue
          obtain ⟨⟨found, after⟩, hmembers, hobject⟩ := hvalue
          obtain rfl : found = ms := by simpa using (Prod.mk.inj hobject).1
          exact natAbs_lt_of_members? hmembers hmem
      · exact absurd hvalue scalar?_ne_object
    · cases h

end Gamebook.Json
