import Gamebook.Proofs.Audit.DeadEnds
import Gamebook.Proofs.Loading.Chain
import Gamebook.Proofs.Story.Canonical
set_option autoImplicit false

/-!
# Faults of weights

What is no natural number can stand as a weight and does no harm: an audit reports it, and a play
goes on without the lot or says that nothing leads out of the room.  Only a weight that is too
long is a fault, and here it is said of a story that is read when an audit or a play meets one.
Besides, a play meets a fault when it is asked for a choice whose number is too long to be told.
-/

namespace Gamebook

/-! ## Plays -/

/-- The error says that a move cannot be made in the story. -/
def SessionError.IsNavigation : SessionError → Prop
  | .fault _ => False
  | _ => True

namespace Session

variable {σ : Type} {s : Session σ}

/-- A move that the reader has no say in meets a fault exactly if the room is not terminal and a
weight of its lot that is read is too long. -/
theorem advance_eq_fault_iff {r : Room} (hroom : s.room = .ok r) (dice : Dice σ) {fault : Fault} :
    (s.advance dice).1 = .error (.fault fault) ↔
      Transition.ending? r.transitions = none ∧ ∃ o, fault = .overlong o ∧
        Choice.FirstOverlong Choice.HasNumber o (Transition.weighted r.transitions) := by
  simp only [← Lot.draw_eq_error_iff dice s.luck]
  unfold advance
  simp only [hroom]
  cases Transition.ending? r.transitions with
  | some outcome => simp
  | none =>
    rcases Lot.draw dice r.transitions s.luck with ⟨result, luck⟩
    cases result with
    | error o => simp [eq_comm]
    | ok target? =>
      cases target? with
      | some target => simp
      | none => by_cases hmanual : Transition.manual r.transitions = [] <;> simp [hmanual]

end Session

/-- What an operation in a play of a story can fail with, unless a bookmark is saved. -/
inductive Story.Meets (story : Story) : Operation → SaveError → Prop where
  /-- A move cannot be made. -/
  | navigation (op : Operation) {e : SessionError} (navigation : e.IsNavigation) :
      Meets story op (.session e)
  /-- A weight of a room is too long. -/
  | overlong {r : Room} {o : Overlong} (room : r ∈ story.rooms)
      (found : Choice.FirstOverlong Choice.HasNumber o (Transition.weighted r.transitions)) :
      Meets story .advance (.session (.fault (.overlong o)))
  /-- The number of a choice that there is not is too long to be told. -/
  | unwritten {index : Int} (long : 10 ^ Overlong.limit ≤ index.natAbs) :
      Meets story (.choose index) (.session (.fault .unwritten))

/-- An operation on a session fails with nothing else. -/
theorem Session.Fails.meets {σ : Type} {s : Session σ} {dice : Dice σ} {op : Operation}
    {e : SessionError} (h : s.Fails dice op e) : s.story.Meets op (.session e) := by
  cases h with
  | ended => exact .navigation op trivial
  | unknown => exact .navigation op trivial
  | noChoice index id => exact .navigation _ trivial
  | unwritten long => exact .unwritten long
  | advance failed =>
    cases hroom : s.room with
    | error e' =>
      rw [Session.advance, hroom] at failed
      cases failed
      rcases alreadyEnded_or_unknownRoom_of_room hroom with rfl | ⟨id, rfl⟩
      · exact .navigation _ trivial
      · exact .navigation _ trivial
    | ok r =>
      obtain ⟨id, -, hfind⟩ := find?_of_room hroom
      cases e with
      | fault fault =>
        obtain ⟨-, o, rfl, hlong⟩ := (advance_eq_fault_iff hroom dice).mp failed
        exact .overlong (List.mem_of_find?_eq_some hfind) hlong
      | unknownRoom => exact .navigation _ trivial
      | deadEnd => exact .navigation _ trivial
      | invalidChoice => exact .navigation _ trivial
      | alreadyEnded => exact .navigation _ trivial

/-- The operation asks for no choice whose number is too long to be told. -/
def Operation.HasShortNumber : Operation → Prop
  | .choose index => index.natAbs < 10 ^ Overlong.limit
  | _ => True

theorem Story.Meets.isNavigation {story : Story} {op : Operation} {e : SaveError}
    (h : story.Meets op e) (hshort : story.HasShortWeights) (hop : op.HasShortNumber) :
    ∃ e', e = .session e' ∧ e'.IsNavigation := by
  cases h with
  | navigation _ hnavigation => exact ⟨_, rfl, hnavigation⟩
  | overlong hroom hfound =>
    obtain ⟨c, hc, hoverlong⟩ := hfound.exists_mem
    exact absurd (hshort _ hroom c (Transition.mem_of_mem_weighted hc)) hoverlong.not_isShort
  | unwritten hlong => exact absurd hop (Nat.not_lt_of_le hlong)

namespace Situation

variable {σ : Type} {dice : Dice σ} {m : Markers}

theorem meets_of_perform {t : Situation σ} {op : Operation} (hop : ∀ path, op ≠ .bookmark path)
    {e : SaveError} (h : (t.perform dice m op).1 = .error e) : t.session.story.Meets op e := by
  obtain ⟨e', rfl, hfails⟩ := fails_of_perform hop h
  exact hfails.meets

/-- In a run without bookmarks nothing fails with anything else. -/
theorem meets_of_run {story : Story} {t : Situation σ} (hstory : t.session.story = story)
    {ops : List Operation} (hops : ∀ path, .bookmark path ∉ ops) {e : SaveError}
    (h : .error e ∈ (t.run dice m ops).1) : ∃ op ∈ ops, story.Meets op e := by
  obtain ⟨hanswers, -⟩ := run_induction_on dice m
    (B := fun op => op ∈ ops ∧ ∀ path, op ≠ .bookmark path)
    (I := fun t => t.session.story = story)
    (A := fun answer => ∀ e, answer = .error e → ∃ op ∈ ops, story.Meets op e)
    (fun t op hop ht => ⟨fun e he => ⟨op, hop.1, ht ▸ meets_of_perform hop.2 he⟩,
      (t.perform_story dice m op).1.trans ht⟩)
    hstory (fun op hop => ⟨hop, fun path heq => hops path (heq ▸ hop)⟩)
  exact hanswers _ h e rfl

end Situation

/-! ## Stories that are read -/

/-- The weight of any choice can be told unless it is a numeral that is too long; and in a story
that is read from whatever lines nothing else goes wrong with weights.  An audit from whatever
start fails exactly with the first weight in the file that is too long, and otherwise answers.
The move that the reader has no say in meets a fault in a room exactly if a weight of its lot is
too long before one is no number.  In a run of a play in which no bookmark is saved nothing else
fails but moves that cannot be made, or a choice is asked for whose number has more than 4300 digits;
and when all weights and all numbers are short, nothing but these moves fails. -/
theorem weights_fault_iff {m : Markers} {raw : List Text} {story : Story}
    (hread : Story.read m raw = .ok story) :
    (∀ (c : Choice) e, c.weight = .error e ↔ c.IsOverlong e) ∧
    (∀ start? e, audit story start? = .error e ↔
      Choice.FirstOverlong Choice.IsShort e (Audit.choices story.rooms)) ∧
    (∀ r ∈ story.rooms, ∀ (σ : Type) (dice : Dice σ) source? luck fault,
      ((Session.start story source? (some r.id) luck).advance dice).1 = .error (.fault fault) ↔
        ∃ o, fault = .overlong o ∧
          Choice.FirstOverlong Choice.HasNumber o (Transition.weighted r.transitions)) ∧
    (∀ (σ : Type) (dice : Dice σ) (saved : Markers) source? start? luck w ops,
      (∀ path, .bookmark path ∉ ops) → ∀ e,
        .error e ∈ (Situation.run dice saved ⟨.start story source? start? luck, w⟩ ops).1 →
          (∃ op ∈ ops, story.Meets op e) ∧
          (story.HasShortWeights →
            (∀ index, .choose index ∈ ops → index.natAbs < 10 ^ Overlong.limit) →
            ∃ e', e = .session e' ∧ e'.IsNavigation)) ∧
    (story.HasShortWeights → ∀ start?, ∃ findings, audit story start? = .ok findings) := by
  have hlawful : story.Lawful fun _ => True :=
    Story.lawful_of_read hread fun _ _ _ _ => trivial
  refine ⟨fun c e => Choice.weight_eq_error_iff, fun start? e => audit_eq_error_iff, ?_, ?_,
    Audit.exists_audit⟩
  · intro r hr σ dice source? luck fault
    rw [Session.advance_eq_fault_iff (hlawful.room_start hr source? luck)]
    refine and_iff_right_of_imp ?_
    rintro ⟨o, -, hlong⟩
    obtain ⟨c, hc, -⟩ := hlong.exists_mem
    -- an ending stands alone, so that there is no lot beside it
    rcases (hlawful.rooms r hr).unmixed with ⟨outcome, halone⟩ | hchoices
    · rw [halone] at hc
      cases hc
    · exact Transition.ending?_eq_none hchoices
  · intro σ dice saved source? start? luck w ops hops e he
    obtain ⟨op, hop, hmeets⟩ := Situation.meets_of_run rfl hops he
    refine ⟨⟨op, hop, hmeets⟩, fun hshort hnumbers => hmeets.isNavigation hshort ?_⟩
    cases op with
    | choose index => exact hnumbers index hop
    | _ => trivial

/-- In the pit the lot falls to nothing, and there is no choice to make; after giving up nothing
can be done.  None of this is a fault, and an audit answers. -/
theorem weights_fault_iff_pit :
    Story.read .standard Pit.lines = .ok Pit.story ∧
      (∃ findings, audit Pit.story none = .ok findings) ∧
      ∀ e, .error e ∈ (Situation.run .zero .standard
          ⟨.start Pit.story none none (), Cellar.world⟩
          [.view, .advance, .choose 0, .quit, .advance]).1 →
        ∃ e', e = .session e' ∧ e'.IsNavigation := by
  have hread : Story.read .standard Pit.lines = .ok Pit.story := rfl
  obtain ⟨-, -, -, hruns, haudits⟩ := weights_fault_iff hread
  refine ⟨hread, haudits Pit.hasShortWeights none, fun e he => ?_⟩
  obtain ⟨-, hnavigation⟩ := hruns _ _ _ _ _ _ _ _ (by simp) e he
  refine hnavigation Pit.hasShortWeights fun index hindex => ?_
  obtain rfl : index = 0 := by simpa using hindex
  exact Nat.lt_of_lt_of_le (by decide) Overlong.ten_le_pow_limit

/-! ## A tower that is too high -/

namespace Tower

/-- The weight of the way up is written as a row of ones. -/
def weight (ones : Nat) : Text := List.replicate ones '1'

/-- The way up. -/
def stairs (ones : Nat) : Choice := ⟨"Climb".toList, "attic".toList, some (weight ones)⟩

/-- From the hall the reader climbs to the attic, where the story ends. -/
def story (ones : Nat) : Story where
  rooms := [⟨"hall".toList, [], [], [.choice (stairs ones)]⟩,
    ⟨"attic".toList, [], [], [.ending .success]⟩]
  rooms_ne_nil := List.cons_ne_nil _ _

/-- The lines that the story is read from. -/
def lines (ones : Nat) : List Text :=
  ["Rhall:".toList, [], ";;;".toList, ":Climb\t -> attic?".toList ++ weight ones,
    "Rattic:".toList, [], ";;;".toList, "=)".toList]

variable {ones : Nat}

theorem isClean_weight : (weight ones).IsClean := by
  have hblank : Text.isBlank '1' = false := by decide
  refine ⟨Text.trim_eq_self ⟨?_, ?_⟩, ?_⟩
  · intro c hc
    rw [List.eq_of_mem_replicate (List.mem_of_head? hc)]
    exact hblank
  · intro c hc
    rw [List.eq_of_mem_replicate (List.mem_of_getLast? hc)]
    exact hblank
  · intro hmem
    exact absurd (List.eq_of_mem_replicate hmem) (by decide)

theorem writable_stairs : (stairs ones).Writable where
  text := (by decide : Text.IsClean "Climb".toList)
  text_arrow := (by decide : ¬ " -> ".toList <:+: "Climb".toList)
  target := (by decide : Text.IsClean "attic".toList)
  target_ne_nil := List.cons_ne_nil _ _
  unweighted := nofun
  weighted := by
    intro w hw
    obtain rfl : weight ones = w := Option.some.inj hw
    exact ⟨isClean_weight, fun hmem => absurd (List.eq_of_mem_replicate hmem) (by decide)⟩

/-- A room without a title and a description can be written whatever leads out of it. -/
theorem writable_room {id : Text} {ts : List Transition} (hid : id.IsClean) (hne : id ≠ [])
    (hcolon : ':' ∉ id)
    (hleads : (∃ outcome, ts = [.ending outcome]) ∨ (ts ≠ [] ∧ ∀ t ∈ ts, t.isEnding = false))
    (hchoices : ∀ c, .choice c ∈ ts → c.Writable) : Room.Writable ⟨id, [], [], ts⟩ where
  id := hid
  id_ne_nil := hne
  id_colon := hcolon
  title := (by decide : Text.IsClean [])
  description := (by decide : ∀ part ∈ Text.paragraphs [],
    Text.trim part = part ∧ part ≠ ";;;".toList)
  leads := hleads
  choices := hchoices

theorem writable : (story ones).Writable where
  rooms := by
    intro r hr
    rcases List.mem_pair.mp hr with rfl | rfl
    · refine writable_room (by decide) (by decide) (by decide) (.inr ⟨List.cons_ne_nil _ _, ?_⟩) ?_
      · exact fun t ht => List.mem_singleton.mp ht ▸ rfl
      · intro c hc
        cases List.mem_singleton.mp hc
        exact writable_stairs
    · exact writable_room (by decide) (by decide) (by decide) (.inl ⟨_, rfl⟩) (by simp)
  ids_nodup := (by decide : ["hall".toList, "attic".toList].Nodup)

theorem read_lines : Story.read .standard (lines ones) = .ok (story ones) := writable.read_toLines

theorem mapM_digitValue?_weight (ones : Nat) :
    (weight ones).mapM Text.digitValue? = some (List.replicate ones 1) := by
  have hone : Text.digitValue? '1' = some 1 := by decide
  induction ones with
  | zero => rfl
  | succ n ih =>
    rw [weight] at ih
    rw [weight, List.replicate_succ, List.mapM_cons, hone, ih]
    rfl

/-- A row of more ones than are converted is too long. -/
theorem isOverlong_stairs (h : Overlong.limit < ones) : (stairs ones).IsOverlong ⟨ones⟩ := by
  obtain ⟨n, rfl⟩ := Nat.exists_eq_add_one_of_ne_zero (Nat.ne_zero_of_lt h)
  have hnumeral : Text.plainNumeral? (weight (n + 1)) =
      ((weight (n + 1)).mapM Text.digitValue?).map (false, ·) := rfl
  refine ⟨weight (n + 1), rfl, List.replicate (n + 1) 1, ?_, ?_, ?_⟩
  · rw [hnumeral, mapM_digitValue?_weight]
    rfl
  · rwa [List.length_replicate]
  · rw [List.length_replicate]

end Tower

/-- With one digit more than are converted the tower's story is read, but no audit of it answers,
and the first move of a play is a fault. -/
theorem tower_faults :
    Story.read .standard (Tower.lines 4301) = .ok (Tower.story 4301) ∧
      (∀ start?, audit (Tower.story 4301) start? = .error ⟨4301⟩) ∧
      (Situation.run .zero .standard ⟨.start (Tower.story 4301) none none (), Cellar.world⟩
          [.advance]).1 = [.error (.session (.fault (.overlong ⟨4301⟩)))] ∧
      ¬ (SessionError.fault (.overlong ⟨4301⟩)).IsNavigation := by
  have hlong : (Tower.stairs 4301).IsOverlong ⟨4301⟩ := Tower.isOverlong_stairs (by decide)
  refine ⟨Tower.read_lines, fun start? => audit_eq_error_iff.mpr (.here hlong), ?_, nofun⟩
  have hroom : (Session.start (Tower.story 4301) none none ()).room =
      .ok ⟨"hall".toList, [], [], [.choice (Tower.stairs 4301)]⟩ := rfl
  have hadvance := (Session.advance_eq_fault_iff hroom .zero).mpr
    ⟨rfl, ⟨4301⟩, rfl, .here hlong⟩
  simp only [Situation.run, Situation.perform, hadvance, Situation.answer]

end Gamebook
