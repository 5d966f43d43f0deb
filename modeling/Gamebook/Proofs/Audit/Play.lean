import Gamebook.Proofs.Audit
import Gamebook.Proofs.Loading.Names
set_option autoImplicit false

/-!
# Play after an audit

When a story is loaded and an audit of it finds no error, no play from the room that
loading says to start in ever gets stuck.
-/

namespace Gamebook

/-! ## Plays that go on -/

namespace Session

variable {σ : Type}

/-- A play of a playable story from one of its rooms is sound. -/
theorem sound_start {story : Story} {start? : Option Text} (hplayable : story.Playable)
    (hstart : story.startId start? ∈ story.ids) (source? : Option Text) (luck : σ) :
    (Session.start story source? start? luck).Sound := by
  refine ⟨hplayable, ?_⟩
  intro id hid
  obtain rfl : story.startId start? = id := by
    unfold start at hid
    exact Position.active.inj hid
  exact hstart

/-- The next move is there: one that the reader has no say in, or the reader has a
choice to make and the session waits for it. -/
def CanMove (dice : Dice σ) (s : Session σ) : Prop :=
  (∃ step, (s.advance dice).1 = .ok (some step)) ∨
    s.advance dice = (.ok none, s) ∧
      ∃ view step, s.view = .ok view ∧ view.choices ≠ [] ∧ (s.choose 0).1 = .ok step

theorem Sound.canMove {s : Session σ} {dice : Dice σ} (h : s.Sound) (hdice : dice.Fair) {id : Text}
    (hid : s.position = .active id) : s.CanMove dice := by
  rcases h.room_cases with ⟨⟨outcome, hfinished⟩, -⟩ | ⟨-, r, hr, hroom⟩
  · cases hid.symm.trans hfinished
  · rcases h.advance_cases hdice hroom hr with hstep | ⟨hnone, hmanual⟩
    · exact .inl hstep
    · exact .inr ⟨hnone, exists_choose_zero hroom hmanual⟩

end Session

/-! ## Audited stories -/

/-- No play of a story that is loaded, and in which an audit finds no error, misses a
room or meets a dead end, whatever is done and however fair dice fall; and as long as
it has not ended, it goes on. -/
theorem run_of_load_of_audit {σ : Type} {dice : Dice σ} (hdice : dice.Fair) {w : World}
    {f : Format} {path : Text} {loaded : Loaded} {findings : List Finding}
    (hload : w.load f path = .ok loaded)
    (haudit : audit loaded.story (some loaded.room) = .ok findings)
    (hclean : ∀ finding ∈ findings, finding.severity ≠ .error)
    {m : Markers} {source? : Option Text} {luck : σ} {around : World} {ops : List Operation}
    {answers : List (Except SaveError Answer)} {last : Situation σ}
    (hrun : Situation.run dice m ⟨.start loaded.story source? (some loaded.room) luck, around⟩ ops
      = (answers, last)) :
    (∀ id, .error (.session (.unknownRoom id)) ∉ answers) ∧
      (∀ id, .error (.session (.deadEnd id)) ∉ answers) ∧
      ∀ id, last.session.position = .active id → last.session.CanMove dice := by
  obtain ⟨hplayable, hstart⟩ := playable_of_audit (World.lawful_of_load hload) haudit hclean
  have hsound := Session.sound_start hplayable hstart source? luck
  obtain ⟨hanswers, hsound⟩ := Situation.run_of_sound hdice m
    (s := ⟨.start loaded.story source? (some loaded.room) luck, around⟩) hsound ops
  rw [hrun] at hanswers hsound
  refine ⟨?_, ?_, ?_⟩
  · intro id hmem
    exact hanswers _ hmem trivial
  · intro id hmem
    exact hanswers _ hmem trivial
  · intro id hid
    exact hsound.canMove hdice hid

/-- A play in the cellar's story: the reader tries a choice that is not there, and then
climbs. -/
def Cellar.play : List (Except SaveError Answer) × Situation Unit :=
  Situation.run .zero .standard
    ⟨.start story (some "story".toList) (some "hall".toList) (), world⟩
    [.view, .choose 1, .choose 0]

theorem run_of_load_of_audit_cellar :
    (∀ id, .error (.session (.unknownRoom id)) ∉ Cellar.play.1) ∧
      (∀ id, .error (.session (.deadEnd id)) ∉ Cellar.play.1) ∧
      Cellar.play.2.session.position = .active "cellar".toList ∧
      Cellar.play.2.session.CanMove .zero := by
  have haudit : audit Cellar.story (some "hall".toList) = .ok [] := by decide +kernel
  have hrun : Cellar.play = (Cellar.play.1, Cellar.play.2) := rfl
  obtain ⟨hroom, hend, hmove⟩ :=
    run_of_load_of_audit Dice.zero_fair Cellar.load_outer haudit (by simp) hrun
  exact ⟨hroom, hend, rfl, hmove "cellar".toList rfl⟩

end Gamebook
