import Gamebook.Proofs.Session.Moves
set_option autoImplicit false

/-!
# Idle operations

An operation is idle when it looks at the session or bookmarks it, when it fails, and
when it leaves the choice to the reader.  With fair dice an idle operation leaves the
session as it is, the dice included, so that the idle operations of a run can be erased.
After the end of the story all operations are refused, and not even the world changes.
-/

namespace Gamebook

/-- The operation with its answer is idle: it looks or bookmarks, it fails, or it waits
for the reader. -/
def Operation.isIdle : Operation → Except SaveError Answer → Bool
  | .view, _ | .room, _ | .roomId, _ | .bookmark _, _ => true
  | .advance, .ok (.moved none) => true
  | _, .error _ => true
  | _, .ok _ => false

/-- What an operation on a session that has ended is refused with. -/
def Session.refusal {σ : Type} (s : Session σ) : Operation → SessionError
  | .bookmark _ =>
    match s.source? with
    | none => .fault .unsourcedStory
    | some _ => .alreadyEnded
  | _ => .alreadyEnded

theorem Session.Moves.isIdle_eq_false {σ : Type} {s next : Session σ} {dice : Dice σ}
    {op : Operation} {step : Step} (h : s.Moves dice op step next) :
    op.isIdle (.ok (.moved (some step))) = false := by
  cases h <;> rfl

namespace Situation

variable {σ : Type} {dice : Dice σ} {m : Markers} {s t : Situation σ} {op : Operation}

/-! ## Single operations -/

theorem session_of_isIdle (hdice : dice.Fair) (h : op.isIdle (s.perform dice m op).1 = true) :
    (s.perform dice m op).2.session = s.session := by
  rcases perform_cases hdice m s op with ⟨step, next, hmoves, hperform⟩ | ⟨-, hsame⟩
  · rw [hperform, hmoves.isIdle_eq_false] at h
    cases h
  · exact hsame

/-- What an operation answers and does to the session does not hang on the world, unless
it saves a bookmark. -/
theorem perform_congr (dice : Dice σ) (m : Markers) (h : t.session = s.session)
    (hop : ∀ path, op ≠ .bookmark path) :
    (t.perform dice m op).1 = (s.perform dice m op).1 ∧
      (t.perform dice m op).2.session = (s.perform dice m op).2.session := by
  cases op with
  | bookmark path => exact absurd rfl (hop path)
  | view => exact ⟨by rw [perform, perform, h], h⟩
  | room => exact ⟨by rw [perform, perform, h], h⟩
  | roomId => exact ⟨by rw [perform, perform, h], h⟩
  | advance => simp only [perform, h, and_self]
  | choose index => simp only [perform, h, and_self]
  | quit => simp only [perform, h, and_self]

/-! ## Runs -/

/-- The operations of a run that are not idle, with their answers. -/
def effective (dice : Dice σ) (m : Markers) (s : Situation σ) (ops : List Operation) :
    List (Operation × Except SaveError Answer) :=
  (ops.zip (s.run dice m ops).1).filter fun e => !e.1.isIdle e.2

theorem effective_cons (s : Situation σ) (op : Operation) (rest : List Operation) :
    s.effective dice m (op :: rest) =
      if op.isIdle (s.perform dice m op).1 then (s.perform dice m op).2.effective dice m rest
      else (op, (s.perform dice m op).1) :: (s.perform dice m op).2.effective dice m rest := by
  rw [effective, run_cons, List.zip_cons_cons, List.filter_cons]
  cases op.isIdle (s.perform dice m op).1 <;> rfl

/-- Without its idle operations a run gives the same other answers and ends in the same
session, also when bookmarks that it has saved are missing in the world. -/
theorem run_effective (hdice : dice.Fair) (h : t.session = s.session) (ops : List Operation) :
    (t.run dice m ((s.effective dice m ops).map Prod.fst)).1 =
        (s.effective dice m ops).map Prod.snd ∧
      (t.run dice m ((s.effective dice m ops).map Prod.fst)).2.session =
        (s.run dice m ops).2.session := by
  -- once a bookmark is erased the two worlds differ, and only the sessions stay the same
  induction ops generalizing s t with
  | nil => exact ⟨rfl, h⟩
  | cons op rest ih =>
    rw [effective_cons, run_cons]
    cases hidle : op.isIdle (s.perform dice m op).1 with
    | true =>
      have hsame := session_of_isIdle hdice hidle
      rw [if_pos rfl]
      exact ih (h.trans hsame.symm)
    | false =>
      have hop : ∀ path, op ≠ .bookmark path := by
        rintro path rfl
        cases hidle
      obtain ⟨hanswer, hsession⟩ := perform_congr dice m h hop
      obtain ⟨hanswers, hlast⟩ := ih hsession
      rw [if_neg (by decide), List.map_cons, List.map_cons, run_cons, hanswer, hanswers]
      exact ⟨rfl, hlast⟩

/-! ## After the end -/

theorem perform_of_finished {outcome : Outcome} (h : s.session.position = .finished outcome)
    (op : Operation) :
    s.perform dice m op = (.error (.session (s.session.refusal op)), s) := by
  have hid : s.session.roomId = .error .alreadyEnded := by rw [Session.roomId, h]
  have hroom : s.session.room = .error .alreadyEnded := by rw [Session.room, hid]
  cases op with
  | view => rw [perform, Session.view, hroom]; rfl
  | room => rw [perform, hroom]; rfl
  | roomId => rw [perform, hid]; rfl
  | advance => rw [perform, Session.advance, hroom]; rfl
  | choose index => rw [perform, Session.choose, hroom]; rfl
  | quit => rw [perform, Session.quit, hid]; rfl
  | bookmark path =>
    rw [perform, Session.saveBookmark, Session.bookmark, Session.refusal]
    cases hsource : s.session.source? with
    | none => rfl
    | some story =>
      simp only [hid]
      rfl

theorem run_of_finished {outcome : Outcome} (h : s.session.position = .finished outcome)
    (ops : List Operation) :
    s.run dice m ops = (ops.map fun op => .error (.session (s.session.refusal op)), s) := by
  induction ops with
  | nil => rfl
  | cons op rest ih => rw [run_cons, perform_of_finished h, ih, List.map_cons]

/-- With fair dice idle operations leave the session as it is, the dice included; what is
left of a run without them gives the same answers and ends in the same session; and once
the story has ended, all that is done is refused and changes nothing. -/
theorem run_without_idle (hdice : dice.Fair) (m : Markers) (s : Situation σ) :
    (∀ op, op.isIdle (s.perform dice m op).1 = true →
      (s.perform dice m op).2.session = s.session) ∧
    (∀ ops,
      (s.run dice m ((s.effective dice m ops).map Prod.fst)).1 =
          (s.effective dice m ops).map Prod.snd ∧
        (s.run dice m ((s.effective dice m ops).map Prod.fst)).2.session =
          (s.run dice m ops).2.session) ∧
    ∀ outcome, s.session.position = .finished outcome → ∀ ops,
      s.run dice m ops = (ops.map fun op => .error (.session (s.session.refusal op)), s) := by
  refine ⟨?_, ?_, ?_⟩
  · intro op h
    exact session_of_isIdle hdice h
  · intro ops
    exact run_effective hdice rfl ops
  · intro outcome h ops
    exact run_of_finished h ops

/-- Of what is done here, four operations count, and they end the story. -/
theorem run_without_idle_crossroads :
    let ops : List Operation := [.view, .choose 7, .choose 0, .bookmark "mark".toList, .advance,
      .choose 0, .advance, .advance, .quit]
    let moves : List Operation := [.choose 0, .advance, .advance, .advance]
    let last := (Crossroads.outset.run .dealt .standard moves).2
    (Crossroads.outset.perform .dealt .standard (.choose 7)).2.session =
        Crossroads.outset.session ∧
      last.session = (Crossroads.outset.run .dealt .standard ops).2.session ∧
      ∀ more, last.run .dealt .standard more =
        (more.map fun op => .error (.session (last.session.refusal op)), last) := by
  intro ops moves last
  have hmoves : (Crossroads.outset.effective .dealt .standard ops).map Prod.fst = moves := by
    decide +kernel
  have hfinished : last.session.position = .finished .success := by decide +kernel
  obtain ⟨hidle, hruns, -⟩ := run_without_idle Dice.dealt_fair .standard Crossroads.outset
  obtain ⟨-, -, hover⟩ := run_without_idle Dice.dealt_fair .standard last
  refine ⟨hidle (.choose 7) rfl, ?_, hover .success hfinished⟩
  have hlast := (hruns ops).2
  rw [hmoves] at hlast
  exact hlast

end Situation

end Gamebook
