import Gamebook.Lot
import Mathlib.Data.List.Forall2
set_option autoImplicit false

/-!
# What a lot falls to

A roll in range falls to one of the weighted choices, and only to one whose weight
is not zero; and to each such choice falls some roll in range.  When nothing can be
drawn, nothing is rolled.
-/

namespace Gamebook

/-- Dice that always fall to zero. -/
def Dice.zero : Dice Unit where
  roll _ state := (0, state)

theorem Dice.zero_fair : Dice.zero.Fair := by
  intro bound state h
  simp only [zero]
  omega

/-- Dice that count how often they are rolled. -/
def Dice.counted {σ : Type} (dice : Dice σ) : Dice (σ × Nat) where
  roll bound state :=
    let (n, luck) := dice.roll bound state.1
    (n, luck, state.2 + 1)

/-- Dice whose rolls are dealt from a list of numbers, each of them brought below the
bound, and are zero after the last one. -/
def Dice.dealt : Dice (List Nat) where
  roll bound
    | [] => (0, [])
    | n :: rest => ((n % bound : Nat), rest)

theorem Dice.dealt_fair : Dice.dealt.Fair := by
  intro bound state h
  cases state with
  | nil =>
    simp only [dealt]
    omega
  | cons n rest =>
    have hlt : n % bound < bound := Nat.mod_lt n h
    simp only [dealt]
    omega

/-! ## Weights -/

/-- The weight as it is written has no more digits than are converted. -/
def Choice.IsShort (c : Choice) : Prop :=
  ∀ s ∈ c.weightText?, ∀ negative digits, Text.plainNumeral? s = some (negative, digits) →
    digits.length ≤ Overlong.limit

/-- Whether there is a weight can be told exactly if the weight is short. -/
theorem Choice.isShort_iff {c : Choice} : c.IsShort ↔ ∃ n, c.weight = .ok n := by
  unfold IsShort weight
  cases c.weightText? with
  | none => simp
  | some s =>
    unfold weightOfText
    cases hnumeral : Text.plainNumeral? s with
    | none => simp [hnumeral]
    | some numeral =>
      obtain ⟨negative, digits⟩ := numeral
      by_cases hlength : digits.length ≤ Overlong.limit <;> simp [hnumeral, Text.convert, hlength]

namespace Lot

/-- There are weights when every choice has one, and they are these. -/
theorem weights?_eq_ok_some_iff {cs : List Choice} {ws : List Nat} :
    weights? cs = .ok (some ws) ↔ List.Forall₂ (fun c w => c.weight = .ok (some w)) cs ws := by
  induction cs generalizing ws with
  | nil => simp [weights?, eq_comm]
  | cons c rest ih =>
    constructor
    · intro h
      unfold weights? at h
      split at h
      · simp at h
      · simp at h
      · rename_i w hw
        split at h
        · simp at h
        · simp at h
        · rename_i more hmore
          obtain rfl : w :: more = ws := by simpa using h
          exact .cons hw (ih.mp hmore)
    · intro h
      cases h with
      | cons head tail =>
        rw [weights?, head]
        simp only [ih.mpr tail]

theorem length_of_weights? {cs : List Choice} {ws : List Nat}
    (h : weights? cs = .ok (some ws)) : ws.length = cs.length :=
  (weights?_eq_ok_some_iff.mp h).length_eq.symm

/-- The entries of a lot are choices with their weights. -/
theorem weight_of_mem_zip {cs : List Choice} {ws : List Nat} (h : weights? cs = .ok (some ws))
    {c : Choice} {w : Nat} (hmem : (c, w) ∈ cs.zip ws) : c.weight = .ok (some w) :=
  List.forall₂_zip (weights?_eq_ok_some_iff.mp h) hmem

/-- Every choice of a lot has an entry. -/
theorem exists_mem_zip {cs : List Choice} {ws : List Nat} (h : weights? cs = .ok (some ws))
    {c : Choice} (hc : c ∈ cs) : ∃ w, (c, w) ∈ cs.zip ws := by
  have hfst : (cs.zip ws).map Prod.fst = cs :=
    List.map_fst_zip (Nat.le_of_eq (length_of_weights? h).symm)
  rw [← hfst] at hc
  obtain ⟨⟨c', w⟩, hmem, rfl⟩ := List.mem_map.mp hc
  exact ⟨w, hmem⟩

/-- A roll from the sum so far up to the sum of all weights falls to a choice with a
weight that is not zero. -/
theorem exists_winner {cs : List Choice} {ws : List Nat} (hlen : ws.length = cs.length)
    (roll : Int) (sum : Nat) (hlow : sum ≤ roll) (hhigh : roll < sum + totalWeight ws) :
    ∃ c w, (c, w) ∈ cs.zip ws ∧ 0 < w ∧ winner? roll sum (cs.zip ws) = some c.target := by
  induction ws generalizing cs sum with
  | nil =>
    unfold totalWeight at hhigh
    omega
  | cons w ws ih =>
    cases cs with
    | nil => simp at hlen
    | cons c cs =>
      rw [List.zip_cons_cons, winner?]
      by_cases hroll : roll < sum + w
      · rw [if_pos hroll]
        exact ⟨c, w, List.mem_cons_self, by omega, rfl⟩
      · rw [if_neg hroll]
        unfold totalWeight at hhigh
        have hrest : ws.length = cs.length := by simpa using hlen
        obtain ⟨c', w', hmem, hpos, hwinner⟩ := ih hrest (sum + w) (by omega) (by omega)
        exact ⟨c', w', List.mem_cons_of_mem _ hmem, hpos, hwinner⟩

/-- Some roll falls to each choice whose weight is not zero. -/
theorem exists_roll {cs : List Choice} {ws : List Nat} {c : Choice} {w : Nat}
    (hmem : (c, w) ∈ cs.zip ws) (hpos : 0 < w) (sum : Nat) :
    ∃ roll : Nat, sum ≤ roll ∧ roll < sum + totalWeight ws ∧
      winner? roll sum (cs.zip ws) = some c.target := by
  induction ws generalizing cs sum with
  | nil => simp at hmem
  | cons v ws ih =>
    cases cs with
    | nil => simp at hmem
    | cons d cs =>
      rw [List.zip_cons_cons] at hmem ⊢
      rw [totalWeight]
      rcases List.mem_cons.mp hmem with heq | hrest
      · obtain ⟨rfl, rfl⟩ : c = d ∧ w = v := Prod.mk.inj heq
        exact ⟨sum, Nat.le_refl sum, by omega, by rw [winner?, if_pos (by omega)]⟩
      · obtain ⟨roll, hlow, hhigh, hwinner⟩ := ih hrest (sum + v)
        refine ⟨roll, by omega, by omega, ?_⟩
        rw [winner?, if_neg (by omega)]
        exact hwinner

theorem mem_of_winner {entries : List (Choice × Nat)} {roll : Int} {sum : Nat} {target : Text}
    (h : winner? roll sum entries = some target) : ∃ e ∈ entries, e.1.target = target := by
  induction entries generalizing sum with
  | nil => simp [winner?] at h
  | cons e rest ih =>
    unfold winner? at h
    split at h
    · exact ⟨e, List.mem_cons_self, Option.some.inj h⟩
    · obtain ⟨e', he', htarget⟩ := ih h
      exact ⟨e', List.mem_cons_of_mem _ he', htarget⟩

variable {σ : Type} {dice : Dice σ} {ts : List Transition}

/-- Whatever the dice, the target that is drawn is the one of a weighted choice. -/
theorem mem_weighted_of_draw {state : σ} {target : Text}
    (h : (draw dice ts state).1 = .ok (some target)) :
    ∃ c ∈ Transition.weighted ts, c.target = target := by
  unfold draw at h
  split at h
  · simp at h
  · split at h
    · simp at h
    · simp at h
    · split at h
      · simp at h
      · obtain ⟨e, he, htarget⟩ := mem_of_winner (Except.ok.inj h)
        exact ⟨e.1, (List.of_mem_zip he).1, htarget⟩

/-- Nothing is drawn when the weights add up to nothing. -/
theorem draw_of_total_eq_zero (state : σ) {ws : List Nat}
    (hws : weights? (Transition.weighted ts) = .ok (some ws)) (htotal : totalWeight ws < 1) :
    draw dice ts state = (.ok none, state) := by
  unfold draw
  split
  · rfl
  · simp only [hws, if_pos htotal]

/-- When the weights add up to something, one roll decides. -/
theorem draw_of_total_pos (state : σ) {ws : List Nat}
    (hws : weights? (Transition.weighted ts) = .ok (some ws)) (htotal : 1 ≤ totalWeight ws) :
    draw dice ts state =
      (.ok (winner? (dice.roll (totalWeight ws) state).1 0 ((Transition.weighted ts).zip ws)),
        (dice.roll (totalWeight ws) state).2) := by
  unfold draw
  split
  · rename_i hnil
    obtain rfl : [] = ws := by simpa [hnil, weights?] using hws
    cases htotal
  · simp only [hws, if_neg (Nat.not_lt.mpr htotal)]

/-- With fair dice some choice with a weight that is not zero is drawn. -/
theorem exists_draw (hdice : dice.Fair) (state : σ) {ws : List Nat}
    (hws : weights? (Transition.weighted ts) = .ok (some ws)) (htotal : 1 ≤ totalWeight ws) :
    ∃ c w, (c, w) ∈ (Transition.weighted ts).zip ws ∧ 0 < w ∧
      draw dice ts state = (.ok (some c.target), (dice.roll (totalWeight ws) state).2) := by
  obtain ⟨hlow, hhigh⟩ := hdice (totalWeight ws) state htotal
  obtain ⟨c, w, hmem, hpos, hwinner⟩ := exists_winner (length_of_weights? hws)
    (dice.roll (totalWeight ws) state).1 0 (by simpa using hlow) (by simpa using hhigh)
  refine ⟨c, w, hmem, hpos, ?_⟩
  rw [draw_of_total_pos state hws htotal, hwinner]

/-- To each choice of a lot whose weight is not zero the lot can be made to fall. -/
theorem exists_deal {c : Choice} {ws : List Nat}
    (hws : weights? (Transition.weighted ts) = .ok (some ws)) (hc : c ∈ Transition.weighted ts)
    (hweight : c.weight ≠ .ok (some 0)) (rest : List Nat) :
    ∃ roll, draw .dealt ts (roll :: rest) = (.ok (some c.target), rest) := by
  obtain ⟨w, hentry⟩ := exists_mem_zip hws hc
  have hpos : 0 < w := by
    apply Nat.pos_of_ne_zero
    rintro rfl
    exact hweight (weight_of_mem_zip hws hentry)
  obtain ⟨roll, -, hlt, hwinner⟩ := exists_roll hentry hpos 0
  have hmod : roll % totalWeight ws = roll := Nat.mod_eq_of_lt (by omega)
  refine ⟨roll, ?_⟩
  rw [draw_of_total_pos _ hws (by omega), Dice.dealt]
  simp only [hmod]
  rw [hwinner]

/-- Nothing is drawn, and nothing rolled, unless there are weights. -/
theorem draw_of_weights?_eq_error (state : σ) {e : Overlong}
    (hws : weights? (Transition.weighted ts) = .error e) :
    draw dice ts state = (.error e, state) := by
  unfold draw
  split
  · rename_i hnil
    rw [hnil] at hws
    cases hws
  · simp only [hws]

theorem draw_of_weights?_eq_none (state : σ)
    (hws : weights? (Transition.weighted ts) = .ok none) :
    draw dice ts state = (.ok none, state) := by
  unfold draw
  split
  · rfl
  · simp only [hws]

/-- With fair dice a lot falls to nothing and nothing is rolled, or it is rolled once and
falls to a choice whose weight is not zero. -/
theorem draw_cases (hdice : dice.Fair) (ts : List Transition) (state : σ) :
    ((∀ target, (draw dice ts state).1 ≠ .ok (some target)) ∧ (draw dice ts state).2 = state) ∨
      ∃ ws c w, weights? (Transition.weighted ts) = .ok (some ws) ∧
        (c, w) ∈ (Transition.weighted ts).zip ws ∧ 0 < w ∧
        draw dice ts state = (.ok (some c.target), (dice.roll (totalWeight ws) state).2) := by
  cases hws : weights? (Transition.weighted ts) with
  | error e =>
    rw [draw_of_weights?_eq_error state hws]
    exact .inl ⟨by simp, rfl⟩
  | ok found =>
    cases found with
    | none =>
      rw [draw_of_weights?_eq_none state hws]
      exact .inl ⟨by simp, rfl⟩
    | some ws =>
      by_cases htotal : 1 ≤ totalWeight ws
      · obtain ⟨c, w, hmem, hpos, hdraw⟩ := exists_draw hdice state hws htotal
        exact .inr ⟨ws, c, w, rfl, hmem, hpos, hdraw⟩
      · rw [draw_of_total_eq_zero state hws (Nat.lt_of_not_le htotal)]
        exact .inl ⟨by simp, rfl⟩

/-- The lot can fall to none of the choices: one of the weights is no number, or they add up
to nothing. -/
def NeverFalls (cs : List Choice) : Prop :=
  weights? cs = .ok none ∨ ∃ ws, weights? cs = .ok (some ws) ∧ totalWeight ws < 1

/-- However fair dice fall, a lot falls to nothing exactly if it never falls. -/
theorem draw_eq_ok_none_iff (hdice : dice.Fair) (state : σ) :
    (draw dice ts state).1 = .ok none ↔ NeverFalls (Transition.weighted ts) := by
  unfold NeverFalls
  cases hws : weights? (Transition.weighted ts) with
  | error e => simp [draw_of_weights?_eq_error state hws]
  | ok found =>
    cases found with
    | none => simp [draw_of_weights?_eq_none state hws]
    | some ws =>
      by_cases htotal : 1 ≤ totalWeight ws
      · obtain ⟨c, w, -, -, hdraw⟩ := exists_draw hdice state hws htotal
        simp [hdraw, Nat.pos_iff_ne_zero.mp htotal]
      · have hless := Nat.lt_of_not_le htotal
        simp [draw_of_total_eq_zero state hws hless, Nat.lt_one_iff.mp hless]

/-- Fair dice are rolled once when a lot falls, and not at all when it falls to nothing. -/
theorem draw_counted (hdice : dice.Fair) (ts : List Transition) (state : σ) (count : Nat) :
    draw dice.counted ts (state, count) =
      ((draw dice ts state).1, (draw dice ts state).2,
        match (draw dice ts state).1 with
        | .ok (some _) => count + 1
        | _ => count) := by
  cases hws : weights? (Transition.weighted ts) with
  | error e => rw [draw_of_weights?_eq_error _ hws, draw_of_weights?_eq_error _ hws]
  | ok found =>
    cases found with
    | none => rw [draw_of_weights?_eq_none _ hws, draw_of_weights?_eq_none _ hws]
    | some ws =>
      by_cases htotal : 1 ≤ totalWeight ws
      · obtain ⟨c, w, -, -, hdraw⟩ := exists_draw hdice state hws htotal
        have hwinner := congrArg Prod.fst ((draw_of_total_pos state hws htotal).symm.trans hdraw)
        rw [hdraw, draw_of_total_pos (state, count) hws htotal]
        exact congrArg (·, ((dice.roll (totalWeight ws) state).2, count + 1)) hwinner
      · have hzero := Nat.lt_of_not_le htotal
        rw [draw_of_total_eq_zero _ hws hzero, draw_of_total_eq_zero _ hws hzero]

end Lot

end Gamebook
