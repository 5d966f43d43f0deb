import Gamebook.Proofs.Audit.Findings
import Gamebook.Proofs.Session.Ways
set_option autoImplicit false

/-!
# Warnings and play

Play goes along choices, and an audit follows all of them.  So a room that is reported
as unreachable is never entered, and a story that is reported as endless ends only when
the reader gives up.
-/

namespace Gamebook

open Relation (ReflTransGen)

namespace Story

variable {story : Story} {id next : Text} {moves : List (Operation × Step)} {last : Position}

/-- A way is one of the choices that an audit follows. -/
theorem Way.edge (h : story.Way id next) : Audit.Edge story.rooms id next := by
  obtain ⟨r, c, hfind, hc, -, hnext⟩ := h
  exact ⟨r, List.mem_of_find?_eq_some hfind, id_of_find? hfind,
    Audit.mem_targets_iff.mpr ⟨c, hc, hnext⟩⟩

theorem edges_of_ways (h : ReflTransGen story.Way id next) :
    ReflTransGen (Audit.Edge story.rooms) id next :=
  ReflTransGen.mono (fun _ _ hway => hway.edge) _ _ h

/-- Ways lead to each room that a walk leaves. -/
theorem Walk.ways_of_mem {p : Position} (h : story.Walk p moves last) (hp : p = .active id) :
    ∀ move ∈ moves, ReflTransGen story.Way id move.2.origin := by
  induction h generalizing id with
  | stay => simp
  | @go op step between last rest allowed landing onward ih =>
    obtain rfl : step.origin = id := Position.active.inj hp
    refine List.forall_mem_cons.mpr ⟨.refl, ?_⟩
    intro move hmove
    cases between with
    | active room => exact .head (allowed.way landing) (ih rfl move hmove)
    | finished outcome =>
      -- nothing follows the end of a story
      cases onward with
      | stay => cases hmove

/-- A walk from a room to the end of the story ends with a move that leads there. -/
theorem Walk.exists_final {outcome : Outcome}
    (h : story.Walk (.active id) moves (.finished outcome)) :
    ∃ final ∈ moves.getLast?, final.2.landing? = some (.finished outcome) ∧
      story.Allows final.1 final.2 ∧ ReflTransGen story.Way id final.2.origin := by
  cases hfinal : moves.getLast? with
  | none =>
    rw [List.getLast?_eq_none_iff.mp hfinal] at h
    cases h.eq_of_nil
  | some final =>
    have hmem : final ∈ moves := List.mem_of_getLast? hfinal
    exact ⟨final, rfl, h.landing?_of_mem_getLast? final hfinal, h.allows final hmem,
      h.ways_of_mem rfl final hmem⟩

/-- A move that ends the story is made by the reader who gives up, or in a room with
nothing but an ending. -/
theorem Allows.ending_of_landing {op : Operation} {step : Step} {outcome : Outcome}
    (h : story.Allows op step) (hlanding : step.landing? = some (.finished outcome))
    (hquit : op ≠ .quit) :
    ∃ r ∈ story.rooms, r.id = step.origin ∧ (Transition.ending? r.transitions).isSome := by
  cases h with
  | @ending id r ends room alone =>
    refine ⟨r, List.mem_of_find?_eq_some room, id_of_find? room, ?_⟩
    rw [alone]
    rfl
  | lot => cases hlanding
  | pick => cases hlanding
  | quit => exact absurd rfl hquit

end Story

/-- What an audit warns of does not happen in a run with fair dice from the same start, nor on
the way, since each beginning of a run is a run.  No room is entered that is reported as
unreachable.  If the story is reported as endless, it ends only when the reader gives up.
When the start is no room of the story, all rooms are reported and none is entered; when none
is asked for, it is the first room, which is not reported. -/
theorem not_warned_of_run {σ : Type} {dice : Dice σ} {m : Markers} {story : Story}
    {source? start? : Option Text} {luck : σ} {world : World} {findings : List Finding}
    {ops : List Operation} {answers : List (Except SaveError Answer)} {last : Situation σ}
    (hnodup : story.ids.Nodup) (haudit : audit story start? = .ok findings) (hdice : dice.Fair)
    (hrun : Situation.run dice m ⟨.start story source? start? luck, world⟩ ops =
      (answers, last)) :
    (∀ id ∈ story.ids, last.session.position = .active id → .unreachable id ∉ findings) ∧
      (∀ outcome, last.session.position = .finished outcome →
        (∀ final ∈ (Operation.moves ops answers).getLast?, final.1 ≠ .quit) →
        ∀ id, .endless id ∉ findings) ∧
      (story.startId start? ∉ story.ids → ∀ id ∈ story.ids,
        .unreachable id ∈ findings ∧ last.session.position ≠ .active id) ∧
      (start? = none ∨ start? = some [] →
        story.startId start? = story.opening.id ∧ .unreachable story.opening.id ∉ findings) := by
  have hwalk := Situation.walk_run (m := m) hdice ⟨.start story source? start? luck, world⟩ ops
  rw [hrun] at hwalk
  have hentered (id : Text) (hid : last.session.position = .active id) :
      ReflTransGen (Audit.Edge story.rooms) (story.startId start?) id :=
    Story.edges_of_ways (hwalk.ways rfl hid)
  refine ⟨?_, ?_, ?_, ?_⟩
  · intro id _ hid hwarned
    exact ((Audit.unreachable_mem_iff hnodup haudit).mp hwarned).2 (hentered id hid)
  · intro outcome houtcome hquit id hwarned
    rw [houtcome] at hwalk
    obtain ⟨final, hfinal, hlanding, hallows, hways⟩ := hwalk.exists_final
    obtain ⟨r, hr, horigin, hends⟩ := hallows.ending_of_landing hlanding (hquit final hfinal)
    obtain ⟨rfl, -, hnone⟩ := (Audit.endless_mem_iff hnodup haudit).mp hwarned
    rw [hnone r hr (horigin ▸ Story.edges_of_ways hways)] at hends
    cases hends
  · intro hstart id hid
    have hcut : ¬ ReflTransGen (Audit.Edge story.rooms) (story.startId start?) id :=
      fun hreach => hstart (Audit.start_mem_of_edges hreach hid)
    exact ⟨(Audit.unreachable_mem_iff hnodup haudit).mpr ⟨hid, hcut⟩,
      fun hposition => hcut (hentered id hposition)⟩
  · intro hopening
    have hstart : story.startId start? = story.opening.id := by
      rcases hopening with rfl | rfl <;> rfl
    refine ⟨hstart, fun hwarned => ?_⟩
    apply ((Audit.unreachable_mem_iff hnodup haudit).mp hwarned).2
    rw [hstart]

/-- The garden is entered and the story ends there, and an audit warns of neither; started
in the shed, which is no room, the reader stays outside, and an audit warns of every
room. -/
theorem not_warned_of_run_crossroads :
    let ops : List Operation := [.choose 0, .advance, .advance, .advance]
    let played := Crossroads.outset.run .dealt .standard ops
    let outside : Situation (List Nat) :=
      ⟨.start Crossroads.story none (some "shed".toList) [], Crossroads.outset.world⟩
    ∃ findings others, audit Crossroads.story none = .ok findings ∧
      audit Crossroads.story (some "shed".toList) = .ok others ∧
      played.2.session.position = .finished .success ∧
      .unreachable "gate".toList ∉ findings ∧ (∀ id, .endless id ∉ findings) ∧
      ∀ id ∈ Crossroads.story.ids, .unreachable id ∈ others ∧
        (outside.run .dealt .standard ops).2.session.position ≠ .active id := by
  intro ops played outside
  have hnodup : Crossroads.story.ids.Nodup := by decide
  obtain ⟨findings, hfindings⟩ : ∃ findings, audit Crossroads.story none = .ok findings :=
    ⟨_, rfl⟩
  obtain ⟨others, hothers⟩ :
      ∃ others, audit Crossroads.story (some "shed".toList) = .ok others := ⟨_, rfl⟩
  have hplayed : Crossroads.outset.run .dealt .standard ops = (played.1, played.2) := rfl
  have hends : played.2.session.position = .finished .success := by decide +kernel
  have hlast : (Operation.moves ops played.1).getLast? =
      some (.advance, ⟨"garden".toList, none, some .success, true⟩) := by decide +kernel
  have hquit : ∀ final ∈ (Operation.moves ops played.1).getLast?, final.1 ≠ .quit := by
    rw [hlast]
    intro final hfinal
    cases hfinal
    decide
  obtain ⟨-, hendless, -, hfirst⟩ :=
    not_warned_of_run hnodup hfindings Dice.dealt_fair hplayed
  obtain ⟨-, -, houtside, -⟩ := not_warned_of_run hnodup hothers Dice.dealt_fair
    (show outside.run .dealt .standard ops = (_, _) from rfl)
  exact ⟨findings, others, hfindings, hothers, hends, (hfirst (.inl rfl)).2,
    hendless .success hends hquit, houtside (by decide)⟩

end Gamebook
