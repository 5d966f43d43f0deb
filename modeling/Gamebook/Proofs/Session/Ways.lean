import Gamebook.Proofs.Session.Playable
import Gamebook.Proofs.Session.Walk
import Mathlib.Logic.Relation
set_option autoImplicit false

/-!
# Ways through a story

A choice whose weight is zero is never drawn.  The other choices are the ways of a
story: every play goes along them, and in a story that can be played the reader and the
dice together can go along each of them.
-/

namespace Gamebook

open Relation (ReflTransGen)

/-- The operation moves the session on, unless it fails or waits for the reader. -/
def Operation.isMove : Operation → Bool
  | .advance | .choose _ => true
  | _ => false

/-- Some choice leads from a room to the next, and its weight is not zero. -/
def Story.Way (story : Story) (id next : Text) : Prop :=
  ∃ r c, story.find? id = some r ∧ .choice c ∈ r.transitions ∧ c.weight ≠ .ok (some 0) ∧
    c.target = next

theorem Choice.weight_of_not_isWeighted {c : Choice} (h : c.isWeighted = false) :
    c.weight = .ok none := by
  have hnone : c.weightText? = none := by simpa [isWeighted] using h
  rw [weight, hnone]

/-! ## Plays go along ways -/

namespace Story

variable {story : Story} {op : Operation} {step : Step} {id next : Text}

/-- Each move into a room follows a way. -/
theorem Allows.way (h : story.Allows op step) (hlanding : step.landing? = some (.active next)) :
    story.Way step.origin next := by
  have hdestination := (h.destination?_of_landing hlanding).1
  cases h with
  | ending => cases hdestination
  | quit => cases hdestination
  | @lot _ r c w room way weight pos _ =>
    refine ⟨r, c, room, way, ?_, Option.some.inj hdestination⟩
    rw [weight]
    intro hzero
    obtain rfl : w = 0 := Option.some.inj (Except.ok.inj hzero)
    omega
  | @pick _ r c index room way plain =>
    refine ⟨r, c, room, way, ?_, Option.some.inj hdestination⟩
    rw [Choice.weight_of_not_isWeighted plain]
    intro hzero
    cases hzero

/-- A walk from room to room goes along ways. -/
theorem Walk.ways {moves : List (Operation × Step)} {p q : Position} (h : story.Walk p moves q)
    (hp : p = .active id) (hq : q = .active next) : ReflTransGen story.Way id next := by
  induction h generalizing id with
  | stay p =>
    obtain rfl : id = next := Position.active.inj (hp.symm.trans hq)
    exact .refl
  | @go op step between last rest allowed landing onward ih =>
    obtain rfl : step.origin = id := Position.active.inj hp
    cases between with
    | active room => exact .head (allowed.way landing) (ih rfl hq)
    | finished outcome =>
      cases onward with
      | stay => cases hq

end Story

/-- With fair dice no run leads into a room to which no ways lead from the start. -/
theorem Situation.ways_of_run {σ : Type} {dice : Dice σ} (hdice : dice.Fair) (m : Markers)
    {s : Situation σ} {start id : Text} (hstart : s.session.position = .active start)
    {ops : List Operation} (h : (s.run dice m ops).2.session.position = .active id) :
    ReflTransGen s.session.story.Way start id :=
  (walk_run hdice s ops).ways hstart h

/-! ## Plays along all ways -/

namespace Story

variable {story : Story} {id next : Text}

/-- A room of a playable story that a choice leads out of has no ending, and its weights
are numbers. -/
theorem Playable.weights_of_choice (hplayable : story.Playable) {r : Room} {c : Choice}
    (hr : r ∈ story.rooms) (hc : .choice c ∈ r.transitions) :
    Transition.ending? r.transitions = none ∧
      ∃ ws, Lot.weights? (Transition.weighted r.transitions) = .ok (some ws) := by
  have hending : Transition.ending? r.transitions = none := by
    rw [Option.eq_none_iff_forall_ne_some]
    intro outcome hsome
    rw [Transition.ending?_eq_some_iff.mp hsome] at hc
    simp at hc
  rcases hplayable.canLeave r hr with ⟨outcome, hsome⟩ | ⟨ws, hws, -⟩
  · cases hending.symm.trans hsome
  · exact ⟨hending, ws, hws⟩

/-- In a story that can be played the reader can follow each way, or the dice can fall so
that it is followed. -/
theorem exists_move_of_way (hplayable : story.Playable) (hway : story.Way id next)
    (source? : Option Text) (rest : List Nat) (m : Markers) (w : World) :
    ∃ op luck, op.isMove = true ∧
      (Situation.perform .dealt m ⟨⟨story, source?, .active id, luck⟩, w⟩ op).2 =
        ⟨⟨story, source?, .active next, rest⟩, w⟩ := by
  obtain ⟨r, c, hfind, hc, hweight, rfl⟩ := hway
  have hroom (luck : List Nat) :
      Session.room ⟨story, source?, .active id, luck⟩ = .ok r :=
    Session.room_of_find? rfl hfind
  have hchoice : c ∈ r.transitions.filterMap Transition.choice? :=
    Transition.mem_filterMap_choice?.mpr hc
  cases hweighted : c.isWeighted with
  | false =>
    have hmanual : c ∈ Transition.manual r.transitions :=
      List.mem_filter.mpr ⟨hchoice, by rw [hweighted]; rfl⟩
    obtain ⟨index, hindex⟩ := List.getElem?_of_mem hmanual
    refine ⟨.choose index, rest, rfl, ?_⟩
    rw [Situation.perform, Session.choose, hroom]
    simp only [Int.toNat_natCast, hindex, if_neg (Int.not_lt.mpr (Int.natCast_nonneg index))]
    rfl
  | true =>
    have hlot : c ∈ Transition.weighted r.transitions := List.mem_filter.mpr ⟨hchoice, hweighted⟩
    obtain ⟨hending, ws, hws⟩ :=
      hplayable.weights_of_choice (List.mem_of_find?_eq_some hfind) hc
    obtain ⟨roll, hdraw⟩ := Lot.exists_deal hws hlot hweight rest
    refine ⟨.advance, roll :: rest, rfl, ?_⟩
    rw [Situation.perform, Session.advance, hroom]
    simp only [hending, hdraw]
    rfl

/-- A play of a story from its start with rolls that are dealt from a list. -/
def play (story : Story) (source? start? : Option Text) (m : Markers) (w : World)
    (rolls : List Nat) (ops : List Operation) : Situation (List Nat) :=
  (Situation.run .dealt m ⟨.start story source? start? rolls, w⟩ ops).2

variable (source? start? : Option Text) (m : Markers) (w : World)

theorem play_concat (rolls : List Nat) (ops : List Operation) (op : Operation) :
    story.play source? start? m w rolls (ops ++ [op]) =
      ((story.play source? start? m w rolls ops).perform .dealt m op).2 :=
  Situation.run_append _ _ _ ops [op]

/-- Where ways lead in a story that can be played, there leads a play, with as many rolls
left as one likes. -/
theorem exists_play_of_ways (hplayable : story.Playable)
    (h : ReflTransGen story.Way (story.startId start?) id) (rest : List Nat) :
    ∃ rolls ops, (∀ op ∈ ops, op.isMove = true) ∧
      story.play source? start? m w rolls ops = ⟨⟨story, source?, .active id, rest⟩, w⟩ := by
  -- what is left over on the way to a room must be what the next way needs, so the
  -- induction is over all rests
  induction h generalizing rest with
  | refl => exact ⟨rest, [], by simp, rfl⟩
  | tail _ hway ih =>
    obtain ⟨op, luck, hop, hperform⟩ := exists_move_of_way hplayable hway source? rest m w
    obtain ⟨rolls, ops, hops, hplay⟩ := ih luck
    refine ⟨rolls, ops ++ [op], ?_, ?_⟩
    · intro op' hop'
      rcases List.mem_append.mp hop' with hop' | hop'
      · exact hops op' hop'
      · rw [List.mem_singleton.mp hop']
        exact hop
    · rw [play_concat, hplay, hperform]

/-- Moves of the reader and rolls of the dice make the room current. -/
def CanEnter (story : Story) (source? start? : Option Text) (m : Markers) (w : World)
    (id : Text) : Prop :=
  ∃ rolls ops, (∀ op ∈ ops, op.isMove = true) ∧
    (story.play source? start? m w rolls ops).session.position = .active id

/-- Moves of the reader and rolls of the dice lead to a room with nothing but an ending,
and from there the next move ends the story. -/
def CanEnd (story : Story) (source? start? : Option Text) (m : Markers) (w : World) : Prop :=
  ∃ rolls ops id r outcome, (∀ op ∈ ops, op.isMove = true) ∧
    (story.play source? start? m w rolls ops).session.position = .active id ∧
    story.find? id = some r ∧ r.transitions = [.ending outcome] ∧
    (story.play source? start? m w rolls (ops ++ [.advance])).session.position =
      .finished outcome

variable {source? start? m w}

/-- Only ways make a room current, and in a story that can be played all ways do. -/
theorem canEnter_iff (hplayable : story.Playable) :
    story.CanEnter source? start? m w id ↔ ReflTransGen story.Way (story.startId start?) id := by
  constructor
  · rintro ⟨rolls, ops, -, hplay⟩
    exact Situation.ways_of_run Dice.dealt_fair m rfl hplay
  · intro h
    obtain ⟨rolls, ops, hops, hplay⟩ := exists_play_of_ways source? start? m w hplayable h []
    exact ⟨rolls, ops, hops, by rw [hplay]⟩

theorem canEnd_iff (hplayable : story.Playable) :
    story.CanEnd source? start? m w ↔
      ∃ id r outcome, ReflTransGen story.Way (story.startId start?) id ∧
        story.find? id = some r ∧ r.transitions = [.ending outcome] := by
  constructor
  · rintro ⟨rolls, ops, id, r, outcome, -, hplay, hfind, halone, -⟩
    exact ⟨id, r, outcome, Situation.ways_of_run Dice.dealt_fair m rfl hplay, hfind, halone⟩
  · rintro ⟨id, r, outcome, h, hfind, halone⟩
    obtain ⟨rolls, ops, hops, hplay⟩ := exists_play_of_ways source? start? m w hplayable h []
    refine ⟨rolls, ops, id, r, outcome, hops, by rw [hplay], hfind, halone, ?_⟩
    have hroom : Session.room ⟨story, source?, .active id, ([] : List Nat)⟩ = .ok r :=
      Session.room_of_find? rfl hfind
    have hending := Transition.ending?_eq_some_iff.mpr halone
    rw [play_concat, hplay, Situation.perform, Session.advance, hroom]
    simp only [hending]
    rfl

end Story

end Gamebook
