import Gamebook.Proofs.Lot.Overlong
set_option autoImplicit false

/-!
# The law of the lot

The numbers below the sum of the weights are shared out among the choices: each choice
owns as many of them in a row as it weighs, after those of the choices before it.  A lot is
one roll below the sum, and it falls to the owner of the number that comes up, so that a
target is drawn for exactly as many numbers as the choices that lead to it weigh together.
Without weights to share out nothing is rolled.
-/

namespace Gamebook

/-- Dice that come up with the same number always, and note the bounds below which they are
rolled. -/
def Dice.noting (n : Int) : Dice (List Nat) where
  roll bound noted := (n, noted ++ [bound])

namespace Choice

/-- The weight as it is written is no numeral, or a negative number. -/
def IsUnfit (c : Choice) : Prop :=
  ∃ s ∈ c.weightText?, Text.plainNumeral? s = none ∨
    ∃ digits, Text.plainNumeral? s = some (true, digits) ∧ Text.ofDigits digits ≠ 0

/-- A choice that is to be drawn has a weight unless what is written is unfit. -/
theorem weight_eq_ok_none_iff {c : Choice} (hweighted : c.isWeighted = true)
    (hshort : c.IsShort) : c.weight = .ok none ↔ c.IsUnfit := by
  unfold IsUnfit weight
  unfold isWeighted at hweighted
  cases htext : c.weightText? with
  | none =>
    rw [htext] at hweighted
    cases hweighted
  | some s =>
    unfold weightOfText
    cases hnumeral : Text.plainNumeral? s with
    | none => simp [hnumeral]
    | some numeral =>
      obtain ⟨negative, digits⟩ := numeral
      have hlength := hshort s htext negative digits hnumeral
      cases negative <;> simp [hnumeral, Text.convert, hlength]

end Choice

theorem Transition.isWeighted_of_mem_weighted {ts : List Transition} {c : Choice}
    (h : c ∈ weighted ts) : c.isWeighted = true := (List.mem_filter.mp h).2

namespace Lot

/-! ## Shares -/

/-- The number is one of those that the weight at an index owns: the weights before it do not
reach it, and with this weight they go beyond it. -/
def Owns (ws : List Nat) (i n : Nat) : Prop :=
  totalWeight (ws.take i) ≤ n ∧ n < totalWeight (ws.take (i + 1))

theorem owns_cons_zero {w n : Nat} {ws : List Nat} : Owns (w :: ws) 0 n ↔ n < w := by
  simp [Owns, totalWeight]

theorem owns_cons_succ {w n i : Nat} {ws : List Nat} :
    Owns (w :: ws) (i + 1) n ↔ w ≤ n ∧ Owns ws i (n - w) := by
  simp only [Owns, List.take_succ_cons, totalWeight]
  omega

/-- Every number below the sum of the weights has an owner. -/
theorem exists_owns {ws : List Nat} {n : Nat} (h : n < totalWeight ws) :
    ∃ i, i < ws.length ∧ Owns ws i n := by
  induction ws generalizing n with
  | nil => cases h
  | cons w ws ih =>
    by_cases hn : n < w
    · exact ⟨0, by simp, owns_cons_zero.mpr hn⟩
    · rw [totalWeight] at h
      obtain ⟨i, hi, howns⟩ := ih (show n - w < totalWeight ws by omega)
      exact ⟨i + 1, by simpa using hi, owns_cons_succ.mpr ⟨Nat.le_of_not_lt hn, howns⟩⟩

/-- No number has two owners. -/
theorem Owns.unique {ws : List Nat} {i j n : Nat} (hi : Owns ws i n) (hj : Owns ws j n) :
    i = j := by
  induction ws generalizing i j n with
  | nil => simp [Owns, totalWeight] at hi
  | cons w ws ih =>
    cases i with
    | zero =>
      cases j with
      | zero => rfl
      | succ j =>
        have hlt := owns_cons_zero.mp hi
        have hle := (owns_cons_succ.mp hj).1
        omega
    | succ i =>
      cases j with
      | zero =>
        have hlt := owns_cons_zero.mp hj
        have hle := (owns_cons_succ.mp hi).1
        omega
      | succ j =>
        rw [ih (owns_cons_succ.mp hi).2 (owns_cons_succ.mp hj).2]

/-- A weight that owns a number is not zero. -/
theorem Owns.pos {ws : List Nat} {i n w : Nat} (h : Owns ws i n) (hw : ws[i]? = some w) :
    0 < w := by
  induction ws generalizing i n with
  | nil => cases hw
  | cons v ws ih =>
    cases i with
    | zero =>
      obtain rfl : v = w := by simpa using hw
      have hlt := owns_cons_zero.mp h
      omega
    | succ i => exact ih (owns_cons_succ.mp h).2 hw

/-- A roll falls to the owner of the number that comes up; the numbers are counted on from
`sum`. -/
theorem winner?_of_owns {cs : List Choice} {ws : List Nat} {i n : Nat} {c : Choice}
    (hc : cs[i]? = some c) (h : Owns ws i n) (sum : Nat) :
    winner? (sum + n : Nat) sum (cs.zip ws) = some c.target := by
  induction ws generalizing cs i n sum with
  | nil => simp [Owns, totalWeight] at h
  | cons w ws ih =>
    cases cs with
    | nil => cases hc
    | cons d cs =>
      rw [List.zip_cons_cons, winner?]
      cases i with
      | zero =>
        obtain rfl : d = c := by simpa using hc
        have hlt := owns_cons_zero.mp h
        rw [if_pos (by omega)]
      | succ i =>
        obtain ⟨hle, hrest⟩ := owns_cons_succ.mp h
        have hsum : sum + n = sum + w + (n - w) := by omega
        rw [if_neg (by omega), hsum]
        exact ih (by simpa using hc) hrest (sum + w)

/-- Among the numbers that the choices own, counted on from `sum`, as many fall to a target as
the choices that lead to it weigh. -/
theorem countP_winner? {cs : List Choice} {ws : List Nat} (hlength : ws.length = cs.length)
    (target : Text) (sum : Nat) :
    (List.range' sum (totalWeight ws)).countP
        (fun n => winner? (n : Nat) sum (cs.zip ws) = some target) =
      totalWeight (((cs.zip ws).filter (·.1.target = target)).map (·.2)) := by
  induction ws generalizing cs sum with
  | nil =>
    obtain rfl : cs = [] := List.length_eq_zero_iff.mp hlength.symm
    rfl
  | cons w ws ih =>
    cases cs with
    | nil => cases hlength
    | cons c cs =>
      -- the first choice owns the first `w` numbers, and the rest share out the others
      have hfirst : (List.range' sum w).countP
          (fun n => winner? (n : Nat) sum ((c, w) :: cs.zip ws) = some target) =
            if c.target = target then w else 0 := by
        have hcongr : ∀ n ∈ List.range' sum w,
            winner? (n : Nat) sum ((c, w) :: cs.zip ws) = some c.target := by
          intro n hn
          have hlt := (List.mem_range'_1.mp hn).2
          rw [winner?, if_pos (by omega)]
        split
        · rename_i htarget
          rw [List.countP_eq_length.mpr, List.length_range']
          intro n hn
          simp [hcongr n hn, htarget]
        · rename_i htarget
          rw [List.countP_eq_zero]
          intro n hn
          simp [hcongr n hn, htarget]
      have hrest : (List.range' (sum + w) (totalWeight ws)).countP
          (fun n => winner? (n : Nat) sum ((c, w) :: cs.zip ws) = some target) =
            totalWeight (((cs.zip ws).filter (·.1.target = target)).map (·.2)) := by
        rw [← ih (by simpa using hlength) (sum + w)]
        apply List.countP_congr
        intro n hn
        have hle := (List.mem_range'_1.mp hn).1
        rw [winner?, if_neg (by omega)]
      rw [List.zip_cons_cons, totalWeight, ← List.range'_append_1, List.countP_append, hfirst,
        hrest]
      by_cases htarget : c.target = target <;> simp [htarget, totalWeight]

/-! ## Nothing to share out -/

/-- There is nothing to be shared out: no choice at all, a weight that is unfit, or no weight
but zero. -/
def IsVoid (cs : List Choice) : Prop :=
  cs = [] ∨ (∃ c ∈ cs, c.IsUnfit) ∨
    ∃ ws, List.Forall₂ (fun c w => c.weight = .ok (some w)) cs ws ∧ totalWeight ws < 1

/-- When all weights are short it can be told whether there are weights. -/
theorem weights?_eq_ok_none_iff {cs : List Choice} (hshort : ∀ c ∈ cs, c.IsShort) :
    weights? cs = .ok none ↔ ∃ c ∈ cs, c.weight = .ok none := by
  induction cs with
  | nil => simp [weights?]
  | cons c rest ih =>
    obtain ⟨hc, hrest⟩ := List.forall_mem_cons.mp hshort
    obtain ⟨n, hn⟩ := Choice.isShort_iff.mp hc
    rw [weights?, hn]
    cases n with
    | none => simp [hn]
    | some w =>
      rw [List.exists_mem_cons_iff, hn, ← ih hrest]
      cases weights? rest with
      | error e => simp
      | ok found => cases found <;> simp

theorem exists_weights? {cs : List Choice} (hshort : ∀ c ∈ cs, c.IsShort) :
    ∃ found, weights? cs = .ok found := by
  cases hws : weights? cs with
  | ok found => exact ⟨found, rfl⟩
  | error e =>
    obtain ⟨c, hc, hoverlong⟩ := (weights?_eq_error_iff.mp hws).exists_mem
    exact absurd (hshort c hc) hoverlong.not_isShort

theorem neverFalls_iff_isVoid {cs : List Choice} (hweighted : ∀ c ∈ cs, c.isWeighted = true)
    (hshort : ∀ c ∈ cs, c.IsShort) : NeverFalls cs ↔ IsVoid cs := by
  have hunfit : (∃ c ∈ cs, c.weight = .ok none) ↔ ∃ c ∈ cs, c.IsUnfit := by
    constructor
    · intro h
      obtain ⟨c, hc, hnone⟩ := h
      exact ⟨c, hc, (Choice.weight_eq_ok_none_iff (hweighted c hc) (hshort c hc)).mp hnone⟩
    · intro h
      obtain ⟨c, hc, hunfit⟩ := h
      exact ⟨c, hc, (Choice.weight_eq_ok_none_iff (hweighted c hc) (hshort c hc)).mpr hunfit⟩
  simp only [NeverFalls, IsVoid, weights?_eq_ok_none_iff hshort, hunfit, weights?_eq_ok_some_iff]
  constructor
  · intro h
    exact .inr h
  · intro h
    rcases h with rfl | h
    · exact .inr ⟨[], .nil, Nat.zero_lt_one⟩
    · exact h

/-! ## The law -/

variable {ts : List Transition}

/-- With nothing to share out nothing is rolled and nothing is drawn. -/
theorem draw_of_isVoid (hshort : ∀ c ∈ Transition.weighted ts, c.IsShort)
    (h : IsVoid (Transition.weighted ts)) {σ : Type} (dice : Dice σ) (state : σ) :
    draw dice ts state = (.ok none, state) := by
  rw [← neverFalls_iff_isVoid (fun c hc => Transition.isWeighted_of_mem_weighted hc) hshort] at h
  rcases h with hnone | ⟨ws, hws, htotal⟩
  · exact draw_of_weights?_eq_none state hnone
  · exact draw_of_total_eq_zero state hws htotal

/-- With weights to share out something has been noted. -/
theorem draw_noting_ne_none (hshort : ∀ c ∈ Transition.weighted ts, c.IsShort)
    (h : ¬ IsVoid (Transition.weighted ts)) (n : Int) (noted : List Nat) :
    draw (.noting n) ts noted ≠ (.ok none, noted) := by
  rw [← neverFalls_iff_isVoid (fun c hc => Transition.isWeighted_of_mem_weighted hc) hshort,
    NeverFalls, not_or] at h
  obtain ⟨found, hfound⟩ := exists_weights? hshort
  cases found with
  | none => exact absurd hfound h.1
  | some ws =>
    have htotal : 1 ≤ totalWeight ws := Nat.le_of_not_lt fun hlt => h.2 ⟨ws, hfound, hlt⟩
    rw [draw_of_total_pos _ hfound htotal]
    simp [Dice.noting]

/-- A number below the sum of the weights has one owner, the target of which is drawn when it
comes up. -/
theorem exists_owner {ws : List Nat} (hfound : weights? (Transition.weighted ts) = .ok (some ws))
    (htotal : 1 ≤ totalWeight ws) {n : Nat} (hn : n < totalWeight ws) :
    ∃ i c, (Transition.weighted ts)[i]? = some c ∧ Owns ws i n ∧ (∀ j, Owns ws j n → j = i) ∧
      c.weight ≠ .ok (some 0) ∧
      ∀ {σ : Type} (dice : Dice σ) (state : σ), (dice.roll (totalWeight ws) state).1 = n →
        draw dice ts state = (.ok (some c.target), (dice.roll (totalWeight ws) state).2) := by
  obtain ⟨i, hi, howns⟩ := exists_owns hn
  have hlt : i < (Transition.weighted ts).length := length_of_weights? hfound ▸ hi
  have hc := List.getElem?_eq_getElem hlt
  have hweight : (Transition.weighted ts)[i].weight = .ok (some ws[i]) :=
    (weights?_eq_ok_some_iff.mp hfound).get hlt hi
  refine ⟨i, (Transition.weighted ts)[i], hc, howns, fun j hj => hj.unique howns, ?_, ?_⟩
  · rw [hweight]
    simpa using Nat.pos_iff_ne_zero.mp (howns.pos (List.getElem?_eq_getElem hi))
  · intro σ dice state hroll
    have hwinner := winner?_of_owns hc howns 0
    rw [Nat.zero_add, ← hroll] at hwinner
    rw [draw_of_total_pos state hfound htotal, hwinner]

/-- A target is drawn for as many numbers as the choices that lead to it weigh. -/
theorem countP_draw {ws : List Nat} (hfound : weights? (Transition.weighted ts) = .ok (some ws))
    (htotal : 1 ≤ totalWeight ws) (target : Text) :
    (List.range (totalWeight ws)).countP
        (fun n : Nat => (draw (.noting n) ts []).1 = .ok (some target)) =
      totalWeight
        ((((Transition.weighted ts).zip ws).filter (·.1.target = target)).map (·.2)) := by
  rw [← countP_winner? (length_of_weights? hfound) target 0, List.range_eq_range']
  apply List.countP_congr
  intro n _
  simp [draw_of_total_pos _ hfound htotal, Dice.noting]

/-- When all weights are short, a lot is drawn by this law.  With nothing to share out nothing is
rolled and nothing is drawn, whatever the dice, and only then.  Otherwise the dice are rolled
once, below the sum of the weights; whatever the dice, a number in this range has one owner, the
target of the owner is drawn, and it does not weigh zero; and a target is drawn for as many
numbers of the range as the choices that lead to it weigh. -/
theorem draw_law (ts : List Transition) (hshort : ∀ c ∈ Transition.weighted ts, c.IsShort) :
    let cs := Transition.weighted ts
    (IsVoid cs → ∀ {σ : Type} (dice : Dice σ) (state : σ),
      draw dice ts state = (.ok none, state)) ∧
    (∀ n noted, draw (.noting n) ts noted = (.ok none, noted) → IsVoid cs) ∧
    (¬ IsVoid cs → ∃ ws, List.Forall₂ (fun c w => c.weight = .ok (some w)) cs ws ∧
      1 ≤ totalWeight ws ∧
      (∀ n < totalWeight ws, ∃ i c, cs[i]? = some c ∧ Owns ws i n ∧
        (∀ j, Owns ws j n → j = i) ∧ c.weight ≠ .ok (some 0) ∧
        ∀ {σ : Type} (dice : Dice σ) (state : σ), (dice.roll (totalWeight ws) state).1 = n →
          draw dice ts state = (.ok (some c.target), (dice.roll (totalWeight ws) state).2)) ∧
      ∀ target, (List.range (totalWeight ws)).countP
          (fun n : Nat => (draw (.noting n) ts []).1 = .ok (some target)) =
        totalWeight (((cs.zip ws).filter (·.1.target = target)).map (·.2))) := by
  intro cs
  refine ⟨draw_of_isVoid hshort, fun n noted h => ?_, ?_⟩
  · by_contra hvoid
    exact draw_noting_ne_none hshort hvoid n noted h
  intro hvoid
  rw [← neverFalls_iff_isVoid (fun c hc => Transition.isWeighted_of_mem_weighted hc) hshort,
    NeverFalls, not_or] at hvoid
  obtain ⟨found, hfound⟩ := exists_weights? hshort
  cases found with
  | none => exact absurd hfound hvoid.1
  | some ws =>
    have htotal : 1 ≤ totalWeight ws := Nat.le_of_not_lt fun h => hvoid.2 ⟨ws, hfound, h⟩
    exact ⟨ws, weights?_eq_ok_some_iff.mp hfound, htotal, fun n hn => exists_owner hfound htotal hn,
      countP_draw hfound htotal⟩

namespace Sack

/-- Ways out with weights among others, one of which is zero; two lead to the cellar. -/
def ways : List Transition :=
  [.choice ⟨"Slip".toList, "cellar".toList, some "+3".toList⟩,
    .choice ⟨"Wait".toList, "hall".toList, none⟩,
    .choice ⟨"Climb".toList, "attic".toList, some "-0".toList⟩,
    .ending .failure,
    .choice ⟨"Run".toList, "garden".toList, some "02".toList⟩,
    .choice ⟨"Fall".toList, "cellar".toList, some "1".toList⟩]

theorem isShort : ∀ c ∈ Transition.weighted ways, c.IsShort := by
  have hweights : weights? (Transition.weighted ways) = .ok (some [3, 0, 2, 1]) := by
    decide +kernel
  intro c hc
  obtain ⟨w, hentry⟩ := exists_mem_zip hweights hc
  exact Choice.isShort_iff.mpr ⟨_, weight_of_mem_zip hweights hentry⟩

end Sack

/-- Of six numbers four fall to the cellar and none to the attic, and for each the dice are
rolled once below six. -/
theorem draw_law_sack :
    (∀ c ∈ Transition.weighted Sack.ways, c.IsShort) ∧
      ¬ IsVoid (Transition.weighted Sack.ways) ∧
      (List.range 6).countP
        (fun n : Nat => (draw (.noting n) Sack.ways []).1 = .ok (some "cellar".toList)) = 4 ∧
      (List.range 6).countP
        (fun n : Nat => (draw (.noting n) Sack.ways []).1 = .ok (some "attic".toList)) = 0 ∧
      ∀ n : Nat, n < 6 → ∃ c ∈ Transition.weighted Sack.ways,
        draw (.noting n) Sack.ways [] = (.ok (some c.target), [6]) := by
  obtain ⟨hvoid, -, hlaw⟩ := draw_law Sack.ways Sack.isShort
  have hdrawn : draw (.noting 4) Sack.ways [] ≠ (.ok none, []) := by decide +kernel
  have hnot : ¬ IsVoid (Transition.weighted Sack.ways) := fun h => hdrawn (hvoid h (.noting 4) [])
  obtain ⟨ws, hws, -, howner, hcount⟩ := hlaw hnot
  have hweights : weights? (Transition.weighted Sack.ways) = .ok (some [3, 0, 2, 1]) := by
    decide +kernel
  obtain rfl : [3, 0, 2, 1] = ws :=
    Option.some.inj (Except.ok.inj (hweights.symm.trans (weights?_eq_ok_some_iff.mpr hws)))
  refine ⟨Sack.isShort, hnot, hcount _, hcount _, ?_⟩
  intro n hn
  obtain ⟨i, c, hc, -, -, -, hdraw⟩ := howner n hn
  exact ⟨c, List.mem_of_getElem? hc, hdraw (.noting n) [] rfl⟩

end Lot

end Gamebook
