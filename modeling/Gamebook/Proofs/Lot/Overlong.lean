import Gamebook.Proofs.Lot
set_option autoImplicit false

/-!
# Lots with weights that are too long

Any text can stand as a weight.  What is no natural number keeps a lot from falling, but a
numeral with too many digits is a fault for whoever reads it.  A lot reads its weights up to the
first one that is no number, so that it depends on the order of the choices whether drawing it
fails.
-/

namespace Gamebook

/-! ## The first weight that is too long -/

namespace Choice

/-- The weight as it is written is a numeral with more digits than are converted, this many. -/
def IsOverlong (c : Choice) (e : Overlong) : Prop :=
  ∃ s ∈ c.weightText?, ∃ digits, (Text.plainNumeral? s).map Prod.snd = some digits ∧
    Overlong.limit < digits.length ∧ e = ⟨digits.length⟩

/-- Reading a weight fails for no other reason. -/
theorem weight_eq_error_iff {c : Choice} {e : Overlong} :
    c.weight = .error e ↔ c.IsOverlong e := by
  unfold IsOverlong weight
  cases c.weightText? with
  | none => simp
  | some s =>
    unfold weightOfText
    cases hnumeral : Text.plainNumeral? s with
    | none => simp [hnumeral]
    | some numeral =>
      obtain ⟨negative, digits⟩ := numeral
      by_cases hlength : digits.length ≤ Overlong.limit
      · simp [hnumeral, Text.convert, hlength, Nat.not_lt.mpr hlength, -Option.map_eq_some_iff]
      · simp [hnumeral, Text.convert, hlength, Nat.lt_of_not_le hlength, @eq_comm _ _ e,
          -Option.map_eq_some_iff]

/-- The weight of the choice is a natural number. -/
def HasNumber (c : Choice) : Prop := ∃ n, c.weight = .ok (some n)

/-- Of choices that are read in order, as long as each has a property, the first one whose weight
is too long. -/
inductive FirstOverlong (P : Choice → Prop) (e : Overlong) : List Choice → Prop where
  | here {c : Choice} {rest : List Choice} (overlong : c.IsOverlong e) :
      FirstOverlong P e (c :: rest)
  | later {c : Choice} {rest : List Choice} (passed : P c) (found : FirstOverlong P e rest) :
      FirstOverlong P e (c :: rest)

namespace FirstOverlong

variable {P : Choice → Prop} {e : Overlong} {c : Choice} {cs more : List Choice}

theorem cons_iff : FirstOverlong P e (c :: cs) ↔ c.IsOverlong e ∨ P c ∧ FirstOverlong P e cs := by
  constructor
  · intro h
    cases h with
    | here overlong => exact .inl overlong
    | later passed found => exact .inr ⟨passed, found⟩
  · rintro (hoverlong | ⟨hpassed, hfound⟩)
    · exact .here hoverlong
    · exact .later hpassed hfound

theorem append_iff : FirstOverlong P e (cs ++ more) ↔
    FirstOverlong P e cs ∨ (∀ c ∈ cs, P c) ∧ FirstOverlong P e more := by
  induction cs with
  | nil =>
    have hnil : ¬ FirstOverlong P e [] := nofun
    simp [hnil]
  | cons c cs ih =>
    rw [List.cons_append, cons_iff, ih, cons_iff, List.forall_mem_cons]
    tauto

theorem exists_mem (h : FirstOverlong P e cs) : ∃ c ∈ cs, c.IsOverlong e := by
  induction h with
  | here overlong => exact ⟨_, List.mem_cons_self, overlong⟩
  | later _ _ ih =>
    obtain ⟨c, hc, hoverlong⟩ := ih
    exact ⟨c, List.mem_cons_of_mem _ hc, hoverlong⟩

end FirstOverlong

theorem IsOverlong.not_isShort {c : Choice} {e : Overlong} (h : c.IsOverlong e) : ¬ c.IsShort := by
  rw [isShort_iff]
  rintro ⟨n, hn⟩
  cases (weight_eq_error_iff.mpr h).symm.trans hn

/-- If not all weights are short, some weight is the first one that is not. -/
theorem exists_firstOverlong {cs : List Choice} (h : ¬ ∀ c ∈ cs, c.IsShort) :
    ∃ e, FirstOverlong IsShort e cs := by
  induction cs with
  | nil => exact absurd nofun h
  | cons c cs ih =>
    cases hweight : c.weight with
    | error e => exact ⟨e, .here (weight_eq_error_iff.mp hweight)⟩
    | ok n =>
      have hc : c.IsShort := isShort_iff.mpr ⟨n, hweight⟩
      obtain ⟨e, he⟩ := ih fun hcs => h (List.forall_mem_cons.mpr ⟨hc, hcs⟩)
      exact ⟨e, .later hc he⟩

end Choice

/-! ## Lots -/

namespace Lot

/-- The weights of a lot are read up to the first one that is no number. -/
theorem weights?_eq_error_iff {cs : List Choice} {e : Overlong} :
    weights? cs = .error e ↔ Choice.FirstOverlong Choice.HasNumber e cs := by
  induction cs with
  | nil => exact ⟨nofun, nofun⟩
  | cons c rest ih =>
    rw [Choice.FirstOverlong.cons_iff, ← Choice.weight_eq_error_iff, Choice.HasNumber, ← ih]
    cases hweight : c.weight with
    | error e' => simp [weights?, hweight]
    | ok n =>
      cases n with
      | none => simp [weights?, hweight]
      | some n =>
        cases hrest : weights? rest with
        | error e' => simp [weights?, hweight, hrest]
        | ok ws => cases ws <;> simp [weights?, hweight, hrest]

/-- Whatever dice do, drawing a lot fails exactly if a weight that is read is too long. -/
theorem draw_eq_error_iff {σ : Type} (dice : Dice σ) {ts : List Transition} (state : σ)
    {e : Overlong} : (draw dice ts state).1 = .error e ↔
      Choice.FirstOverlong Choice.HasNumber e (Transition.weighted ts) := by
  rw [← weights?_eq_error_iff]
  cases hws : weights? (Transition.weighted ts) with
  | error e' => rw [draw_of_weights?_eq_error state hws]; simp
  | ok found =>
    cases found with
    | none => rw [draw_of_weights?_eq_none state hws]; simp
    | some ws =>
      by_cases htotal : 1 ≤ totalWeight ws
      · rw [draw_of_total_pos state hws htotal]; simp
      · rw [draw_of_total_eq_zero state hws (by omega)]; simp

end Lot

end Gamebook
