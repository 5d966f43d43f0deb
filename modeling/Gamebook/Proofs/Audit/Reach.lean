import Gamebook.Proofs.Audit.Findings
import Gamebook.Proofs.Loading.Chain
import Gamebook.Proofs.Session.Ways
set_option autoImplicit false

/-!
# Where play gets in an audited story

An audit follows all choices, and play cannot follow those whose weight is zero.  When
an audit finds nothing at all, play gets to every room to which the other choices lead;
and that is every room, unless some weight is zero.
-/

namespace Gamebook

open Relation (ReflTransGen)

namespace Audit

/-- An audit that finds nothing has seen every room, and among them one with nothing but
an ending. -/
theorem reachable_of_audit_eq_nil {s : Story} {start? : Option Text} (hnodup : s.ids.Nodup)
    (h : audit s start? = .ok []) :
    (∀ id ∈ s.ids, id ∈ reachable s.rooms (s.startId start?)) ∧
      ∃ r ∈ s.rooms, r.id ∈ reachable s.rooms (s.startId start?) ∧
        ∃ outcome, r.transitions = [.ending outcome] := by
  have hreached : ∀ id ∈ s.ids, id ∈ reachable s.rooms (s.startId start?) := by
    intro id hid
    by_contra hnot
    have hcut : ¬ ReflTransGen (Edge s.rooms) (s.startId start?) id :=
      fun hreach => hnot ((mem_reachable_iff hnodup).mpr ⟨hid, hreach⟩)
    exact List.not_mem_nil ((unreachable_mem_iff hnodup h).mpr ⟨hid, hcut⟩)
  refine ⟨hreached, ?_⟩
  by_contra hnone
  have hopening : s.opening.id ∈ s.ids := List.mem_map_of_mem (List.head_mem s.rooms_ne_nil)
  have hstart : s.startId start? ∈ s.ids :=
    (reachable_ne_nil_iff hnodup).mp (List.ne_nil_of_mem (hreached s.opening.id hopening))
  have hends : ∀ r ∈ s.rooms, ReflTransGen (Edge s.rooms) (s.startId start?) r.id →
      Transition.ending? r.transitions = none := by
    intro r hr _
    rw [Option.eq_none_iff_forall_ne_some]
    intro outcome hsome
    exact hnone ⟨r, hr, hreached r.id (List.mem_map_of_mem hr), outcome,
      Transition.ending?_eq_some_iff.mp hsome⟩
  exact List.not_mem_nil ((endless_mem_iff hnodup h).mpr ⟨rfl, hstart, hends⟩)

end Audit

/-! ## From the search to play -/

namespace Story

/-- No choice of the story has a weight of zero. -/
def NoZeros (story : Story) : Prop :=
  ∀ r ∈ story.rooms, ∀ c, .choice c ∈ r.transitions → c.weight ≠ .ok (some 0)

/-- Without weights of zero every choice of a story is a way. -/
theorem NoZeros.way {story : Story} {id next : Text} (h : story.NoZeros)
    (hnodup : story.ids.Nodup) (hedge : Audit.Edge story.rooms id next) : story.Way id next := by
  obtain ⟨r, hr, rfl, htarget⟩ := hedge
  obtain ⟨c, hc, hnext⟩ := Audit.mem_targets_iff.mp htarget
  exact ⟨r, c, Room.find?_id_of_nodup hnodup hr, hc, h r hr c hc, hnext⟩

theorem NoZeros.ways_of_mem_reachable {story : Story} {start id : Text} (h : story.NoZeros)
    (hnodup : story.ids.Nodup) (hid : id ∈ Audit.reachable story.rooms start) :
    ReflTransGen story.Way start id :=
  ReflTransGen.mono (fun _ _ hedge => h.way hnodup hedge) _ _ (Audit.edges_of_mem_reachable hid)

end Story

/-- When a story is read and an audit of it finds nothing at all, a room can be made
current exactly if choices that are not of weight zero lead to it, and play can be brought to
an end exactly if they lead to a room with nothing but an ending.  Unless some choice has
weight zero, every room can be made current and play can be brought to an end. -/
theorem canEnter_of_audit {m : Markers} {raw : List Text} {story : Story} {start? : Option Text}
    (hread : Story.read m raw = .ok story) (haudit : audit story start? = .ok [])
    (source? : Option Text) (marks : Markers) (w : World) :
    (∀ id ∈ story.ids, story.CanEnter source? start? marks w id ↔
      ReflTransGen story.Way (story.startId start?) id) ∧
    (story.CanEnd source? start? marks w ↔
      ∃ id r outcome, ReflTransGen story.Way (story.startId start?) id ∧
        story.find? id = some r ∧ r.transitions = [.ending outcome]) ∧
    (story.NoZeros →
      (∀ id ∈ story.ids, story.CanEnter source? start? marks w id) ∧
        story.CanEnd source? start? marks w) := by
  have hlawful : story.Lawful fun _ => True :=
    Story.lawful_of_read hread fun _ _ _ _ => trivial
  obtain ⟨hplayable, -⟩ := playable_of_audit hlawful haudit (by simp [Audit.Clean])
  obtain ⟨hreached, r, hr, hseen, outcome, halone⟩ :=
    Audit.reachable_of_audit_eq_nil hlawful.ids_nodup haudit
  refine ⟨fun id _ => Story.canEnter_iff hplayable, Story.canEnd_iff hplayable, ?_⟩
  intro hzeros
  refine ⟨?_, ?_⟩
  · intro id hid
    apply (Story.canEnter_iff hplayable).mpr
    exact hzeros.ways_of_mem_reachable hlawful.ids_nodup (hreached id hid)
  · apply (Story.canEnd_iff hplayable).mpr
    exact ⟨r.id, r, outcome, hzeros.ways_of_mem_reachable hlawful.ids_nodup hseen,
      Room.find?_id_of_nodup hlawful.ids_nodup hr, halone⟩

theorem canEnter_of_audit_cellar :
    Cellar.story.CanEnter none (some "hall".toList) .standard Cellar.world "cellar".toList ∧
      Cellar.story.CanEnd none (some "hall".toList) .standard Cellar.world := by
  have hread : Story.read .standard Cellar.lines = .ok Cellar.story := rfl
  have haudit : audit Cellar.story (some "hall".toList) = .ok [] := by decide +kernel
  have hzeros : Cellar.story.NoZeros := by
    have hnone : ∀ r ∈ Cellar.story.rooms, ∀ c ∈ r.transitions.filterMap Transition.choice?,
        c.weight ≠ .ok (some 0) := by decide +kernel
    intro r hr c hc
    exact hnone r hr c (Transition.mem_filterMap_choice?.mpr hc)
  obtain ⟨-, -, hall⟩ := canEnter_of_audit hread haudit none .standard Cellar.world
  obtain ⟨henter, hend⟩ := hall hzeros
  exact ⟨henter "cellar".toList (by decide), hend⟩

/-! ## A choice of weight zero -/

namespace Attic

/-- In the hall one can wait, and climb by a lot that never falls. -/
def story : Story where
  rooms := [
    ⟨"hall".toList, [], [],
      [.choice ⟨"Climb".toList, "attic".toList, some "0".toList⟩,
        .choice ⟨"Wait".toList, "hall".toList, none⟩]⟩,
    ⟨"attic".toList, [], [], [.ending .success]⟩]
  rooms_ne_nil := List.cons_ne_nil _ _

/-- The lines that the story is read from. -/
def lines : List Text :=
  ["Rhall:".toList, ";;;".toList, ":Climb -> attic?0".toList, ":Wait -> hall".toList,
    "Rattic:".toList, ";;;".toList, "=)".toList]

theorem way_of_hall {next : Text} (h : story.Way "hall".toList next) : next = "hall".toList := by
  have hstay : ∀ r ∈ story.find? "hall".toList, ∀ c ∈ r.transitions.filterMap Transition.choice?,
      c.weight ≠ .ok (some 0) → c.target = "hall".toList := by decide +kernel
  obtain ⟨r, c, hfind, hc, hweight, rfl⟩ := h
  exact hstay r hfind c (Transition.mem_filterMap_choice?.mpr hc) hweight

theorem ways_of_hall {id : Text} (h : ReflTransGen story.Way "hall".toList id) :
    id = "hall".toList := by
  induction h with
  | refl => rfl
  | tail _ hway ih =>
    rw [ih] at hway
    exact way_of_hall hway

end Attic

/-- An audit finds nothing in the story of the attic, and yet no play, however fair dice
fall, ever leaves the hall: the attic is not entered and play is not brought to an end. -/
theorem not_canEnter_of_audit_attic :
    Story.read .standard Attic.lines = .ok Attic.story ∧ audit Attic.story none = .ok [] ∧
      "attic".toList ∈ Attic.story.ids ∧
      (∀ {σ : Type} (dice : Dice σ), dice.Fair → ∀ source? luck m w ops id,
        (Situation.run dice m ⟨.start Attic.story source? none luck, w⟩ ops).2.session.position =
          .active id → id = "hall".toList) ∧
      ∀ source? m w, ¬ Attic.story.CanEnter source? none m w "attic".toList ∧
        ¬ Attic.story.CanEnd source? none m w := by
  have hstay : ∀ {σ : Type} (dice : Dice σ), dice.Fair → ∀ source? luck m w ops id,
      (Situation.run dice m ⟨.start Attic.story source? none luck, w⟩ ops).2.session.position =
        .active id → id = "hall".toList := by
    intro σ dice hdice source? luck m w ops id hid
    exact Attic.ways_of_hall (Situation.ways_of_run hdice m rfl hid)
  refine ⟨rfl, by decide +kernel, by decide, hstay, ?_⟩
  intro source? m w
  constructor
  · rintro ⟨rolls, ops, -, hplay⟩
    exact absurd (hstay .dealt Dice.dealt_fair source? rolls m w ops _ hplay) (by decide)
  · rintro ⟨rolls, ops, id, r, outcome, -, hplay, hfind, halone, -⟩
    obtain rfl := hstay .dealt Dice.dealt_fair source? rolls m w ops _ hplay
    obtain rfl := Option.some.inj hfind
    cases halone

end Gamebook
