import Gamebook.Proofs.Loading.Files
set_option autoImplicit false

/-!
# Chains of bookmarks

A bookmark names a path, at which there may be another bookmark.  This module
follows the paths that are named without any search for loops: a chain is the hops
from one complete bookmark to the next, and it ends at the first path that leads
back to a file of the chain or is no complete bookmark.

Every path has such a chain, because each hop visits a file of the disk for the
first time, and what loading answers can be read off its end: the outermost
bookmark says where to start, and the innermost one is remembered by errors.
-/

namespace Gamebook

open Text

namespace World

/-! ## Chains -/

/-- A bookmark file that is passed on the way. -/
structure Hop where
  path : Text
  bookmark : Bookmark
  deriving DecidableEq, Repr, Inhabited

/-- Complete bookmarks lead from a path over hops to a path. -/
inductive Chain (w : World) (f : Format) : Text → List Hop → Text → Prop where
  | stay (path : Text) : Chain w f path [] path
  | hop {path last : Text} {b : Bookmark} {hops : List Hop} (found : IsBookmark w f path b)
      (rest : Chain w f b.story hops last) : Chain w f path (⟨path, b⟩ :: hops) last

/-- The files that are passed, as far as their paths resolve. -/
def visits (w : World) (hops : List Hop) : List (Except DiskError Location) :=
  hops.map fun h => w.resolve (.ofText h.path)

/-- The chain ends at the first path that leads back to a file of the chain or is no
complete bookmark. -/
structure Ends (w : World) (f : Format) (path : Text) (hops : List Hop) (last : Text) :
    Prop where
  chain : Chain w f path hops last
  distinct : (w.visits hops).Nodup
  stops : w.resolve (.ofText last) ∈ w.visits hops ∨ ∀ b, ¬ IsBookmark w f last b

/-- The room that an error at the end remembers: the one of the innermost bookmark.
Faults remember none. -/
def rememberedRoom? (hops : List Hop) : LoadCause → Option Text
  | .fault _ => none
  | _ => hops.getLast?.map (·.bookmark.room)

/-- The room to start in: the one of the outermost bookmark, or the first of the
story. -/
def startRoom (hops : List Hop) (story : Story) : Text :=
  match hops with
  | [] => story.opening.id
  | h :: _ => h.bookmark.room

/-- What a chain comes to at its end, when the files in `seen` have been passed. -/
inductive Arrives (w : World) (f : Format) (seen : List (Except DiskError Location))
    (hops : List Hop) (last : Text) : Except LoadError Loaded → Prop where
  /-- The end leads back, whatever the file holds. -/
  | cycle (back : w.resolve (.ofText last) ∈ seen) :
      Arrives w f seen hops last (.error ⟨.cycle last, rememberedRoom? hops (.cycle last)⟩)
  /-- The end is a story. -/
  | story {story : Story} (new : w.resolve (.ofText last) ∉ seen)
      (found : IsStory w f last story) :
      Arrives w f seen hops last (.ok ⟨last, story, startRoom hops story⟩)
  /-- The end is neither. -/
  | fails {cause : LoadCause} (new : w.resolve (.ofText last) ∉ seen)
      (found : Fails w f last cause) :
      Arrives w f seen hops last (.error ⟨cause, rememberedRoom? hops cause⟩)

variable {w : World} {f : Format}

/-! ## One step of loading -/

theorem IsBookmark.resolve {path : Text} {b : Bookmark} (h : IsBookmark w f path b) :
    ∃ l, w.resolve (.ofText path) = .ok l ∧ ∃ e ∈ w.disk.entries, e.1 = l := by
  obtain ⟨bytes, hbytes⟩ := exists_readBytes_of_content (content_eq_bookmark_iff.mpr h)
  obtain ⟨l, hl, -⟩ := locate_of_readBytes hbytes
  have hresolve := resolve_of_locate hl
  exact ⟨l, hresolve, exists_entry_of_readBytes hresolve hbytes⟩

theorem loadFrom_of_resolve_error {visited : List Location} {path : Text} {e : DiskError}
    (h : w.resolve (.ofText path) = .error e) :
    w.loadFrom f visited path = .error ⟨.fault (.disk e path), none⟩ := by
  unfold loadFrom
  split
  · rename_i e' he
    rw [h] at he
    cases he
    rfl
  · rename_i l hl
    rw [h] at hl
    cases hl

/-- The answer of loading as seen through one more bookmark. -/
def through (b : Bookmark) : Except LoadError Loaded → Except LoadError Loaded
  | .error e => .error (e.through b.room)
  | .ok loaded => .ok { loaded with room := b.room }

/-- Where the path resolves, the file decides unless it has been passed. -/
theorem loadFrom_of_resolve {visited : List Location} {path : Text} {l : Location}
    (h : w.resolve (.ofText path) = .ok l) :
    w.loadFrom f visited path =
      if l ∈ visited then .error ⟨.cycle path, none⟩
      else
        match w.content f path with
        | .error cause => .error ⟨cause, none⟩
        | .ok (.story story) => .ok ⟨path, story, story.opening.id⟩
        | .ok (.bookmark b) => through b (w.loadFrom f (l :: visited) b.story) := by
  rw [loadFrom]
  split
  · rename_i e he
    rw [h] at he
    cases he
  · rename_i l' hl
    obtain rfl : l = l' := Except.ok.inj (h.symm.trans hl)
    by_cases hback : l ∈ visited
    · rw [dif_pos hback, if_pos hback]
    · rw [dif_neg hback, if_neg hback]
      split
      · rename_i cause hcontent
        simp only [hcontent]
      · rename_i story hcontent
        simp only [hcontent]
      · rename_i b hcontent
        simp only [hcontent]
        cases w.loadFrom f (l :: visited) b.story <;> rfl

theorem loadFrom_of_visited {visited : List Location} {path : Text} {l : Location}
    (h : w.resolve (.ofText path) = .ok l) (hback : l ∈ visited) :
    w.loadFrom f visited path = .error ⟨.cycle path, none⟩ := by
  rw [loadFrom_of_resolve h, if_pos hback]

theorem loadFrom_of_fails {visited : List Location} {path : Text} {l : Location}
    {cause : LoadCause} (h : w.resolve (.ofText path) = .ok l) (hnew : l ∉ visited)
    (hfails : Fails w f path cause) : w.loadFrom f visited path = .error ⟨cause, none⟩ := by
  rw [loadFrom_of_resolve h, if_neg hnew, content_eq_error_iff.mpr hfails]

theorem loadFrom_of_story {visited : List Location} {path : Text} {l : Location} {story : Story}
    (h : w.resolve (.ofText path) = .ok l) (hnew : l ∉ visited)
    (hstory : IsStory w f path story) :
    w.loadFrom f visited path = .ok ⟨path, story, story.opening.id⟩ := by
  rw [loadFrom_of_resolve h, if_neg hnew, content_eq_story_iff.mpr hstory]

theorem loadFrom_of_bookmark {visited : List Location} {path : Text} {l : Location} {b : Bookmark}
    (h : w.resolve (.ofText path) = .ok l) (hnew : l ∉ visited) (hb : IsBookmark w f path b) :
    w.loadFrom f visited path = through b (w.loadFrom f (l :: visited) b.story) := by
  rw [loadFrom_of_resolve h, if_neg hnew, content_eq_bookmark_iff.mpr hb]

/-! ## What a chain comes to -/

/-- What is remembered and where to start, seen from one bookmark further out. -/
theorem Arrives.hop {seen : List (Except DiskError Location)} {hops : List Hop} {last : Text}
    {result : Except LoadError Loaded} (h : Arrives w f seen hops last result) (first : Hop) :
    Arrives w f seen (first :: hops) last (through first.bookmark result) := by
  have hremembered : ∀ cause, LoadError.through ⟨cause, rememberedRoom? hops cause⟩
      first.bookmark.room = ⟨cause, rememberedRoom? (first :: hops) cause⟩ := by
    intro cause
    cases cause <;> cases hops <;>
      simp [LoadError.through, rememberedRoom?, List.getLast?_cons]
  cases h with
  | cycle back =>
    rw [through, hremembered]
    exact .cycle back
  | story new found => exact .story new found
  | fails new found =>
    rw [through, hremembered]
    exact .fails new found

/-- Loading answers what the chain comes to, also when files have been passed before
its start. -/
theorem Chain.arrives {path last : Text} {hops : List Hop} (h : Chain w f path hops last)
    (visited : List Location) (hdistinct : (visited.map Except.ok ++ w.visits hops).Nodup)
    (hstops : w.resolve (.ofText last) ∈ visited.map Except.ok ++ w.visits hops ∨
      ∀ b, ¬ IsBookmark w f last b) :
    Arrives w f (visited.map Except.ok ++ w.visits hops) hops last (w.loadFrom f visited path) := by
  induction h generalizing visited with
  | stay path =>
    rw [visits, List.map_nil, List.append_nil] at hstops ⊢
    cases hresolve : w.resolve (.ofText path) with
    | error e =>
      have hnull := null_iff_resolve_error.mpr ⟨e, hresolve⟩
      rw [resolve_of_null hnull] at hresolve
      cases hresolve
      rw [loadFrom_of_resolve_error (resolve_of_null hnull)]
      refine .fails ?_ (.null hnull)
      rw [resolve_of_null hnull]
      simp
    | ok l =>
      have hmem : w.resolve (.ofText path) ∈ visited.map Except.ok ↔ l ∈ visited := by
        rw [hresolve]
        simp
      by_cases hback : l ∈ visited
      · rw [loadFrom_of_visited hresolve hback]
        exact .cycle (hmem.mpr hback)
      · have hnew : w.resolve (.ofText path) ∉ visited.map Except.ok := fun h => hback (hmem.mp h)
        cases hcontent : w.content f path with
        | error cause =>
          have hfails := content_eq_error_iff.mp hcontent
          have hnone : rememberedRoom? [] cause = none := by cases cause <;> rfl
          rw [loadFrom_of_fails hresolve hback hfails, ← hnone]
          exact .fails hnew hfails
        | ok found =>
          cases found with
          | story story =>
            have hstory := content_eq_story_iff.mp hcontent
            rw [loadFrom_of_story hresolve hback hstory]
            exact .story hnew hstory
          | bookmark b =>
            have hbookmark := content_eq_bookmark_iff.mp hcontent
            exact absurd hbookmark (hstops.resolve_left hnew b)
  | @hop path last b hops found rest ih =>
    obtain ⟨l, hl, -⟩ := found.resolve
    have hvisits : w.visits (⟨path, b⟩ :: hops) = .ok l :: w.visits hops := by
      rw [visits, List.map_cons, hl]
      rfl
    -- the files seen are the same, with the first one passed already
    have hperm : List.Perm (visited.map Except.ok ++ (.ok l :: w.visits hops))
        ((l :: visited).map Except.ok ++ w.visits hops) := List.perm_middle
    rw [hvisits] at hdistinct hstops ⊢
    have hnew : l ∉ visited := by
      intro hmem
      exact (List.nodup_append.mp hdistinct).2.2 _ (List.mem_map_of_mem hmem) _
        List.mem_cons_self rfl
    rw [loadFrom_of_bookmark hl hnew found]
    have harrives := ih (l :: visited) (hperm.nodup_iff.mp hdistinct)
      (hstops.imp_left fun hback => hperm.mem_iff.mp hback)
    have hout := harrives.hop ⟨path, b⟩
    generalize through b (w.loadFrom f (l :: visited) b.story) = result at hout
    cases hout with
    | cycle back => exact .cycle (hperm.mem_iff.mpr back)
    | story new found => exact .story (fun hback => new (hperm.mem_iff.mp hback)) found
    | fails new found => exact .fails (fun hback => new (hperm.mem_iff.mp hback)) found

/-- A story file is no bookmark. -/
theorem IsStory.not_isBookmark {path : Text} {story : Story} (h : IsStory w f path story)
    (b : Bookmark) : ¬ IsBookmark w f path b := by
  intro hb
  have hcontent := content_eq_story_iff.mpr h
  rw [content_eq_bookmark_iff.mpr hb] at hcontent
  cases hcontent

/-! ## Every path has a chain -/

/-- From any path, and whatever files have been passed before, some chain ends. -/
theorem exists_chain (w : World) (f : Format) (visited : List Location) (path : Text) :
    ∃ hops last, Chain w f path hops last ∧
      (∀ h ∈ hops, w.resolve (.ofText h.path) ∉ visited.map Except.ok) ∧ (w.visits hops).Nodup ∧
      (w.resolve (.ofText last) ∈ visited.map Except.ok ++ w.visits hops ∨
        ∀ b, ¬ IsBookmark w f last b) := by
  by_cases hb : ∃ b, IsBookmark w f path b
  · obtain ⟨b, hb⟩ := hb
    obtain ⟨l, hl, hentry⟩ := hb.resolve
    by_cases hback : l ∈ visited
    · refine ⟨[], path, .stay path, by simp, by simp [visits], .inl ?_⟩
      rw [hl]
      exact List.mem_append_left _ (List.mem_map_of_mem hback)
    · have hless := length_unvisited_cons_lt hentry hback
      obtain ⟨hops, last, hchain, hfresh, hdistinct, hstops⟩ :=
        exists_chain w f (l :: visited) b.story
      have hvisits : w.visits (⟨path, b⟩ :: hops) = .ok l :: w.visits hops := by
        rw [visits, List.map_cons, hl]
        rfl
      refine ⟨⟨path, b⟩ :: hops, last, .hop hb hchain, ?_, ?_, ?_⟩
      · intro h hh
        rcases List.mem_cons.mp hh with rfl | hh
        · rw [hl]
          simpa using hback
        · exact fun hmem => hfresh h hh (List.mem_cons_of_mem _ hmem)
      · rw [hvisits, List.nodup_cons]
        refine ⟨?_, hdistinct⟩
        intro hmem
        obtain ⟨h, hh, heq⟩ := List.mem_map.mp hmem
        exact hfresh h hh (heq ▸ List.mem_cons_self)
      · rw [hvisits]
        exact hstops.imp_left fun hmem => List.perm_middle.mem_iff.mpr hmem
  · exact ⟨[], path, .stay path, by simp, by simp [visits], .inr fun b h => hb ⟨b, h⟩⟩
termination_by (w.unvisited visited).length

theorem exists_ends (w : World) (f : Format) (path : Text) :
    ∃ hops last, Ends w f path hops last := by
  obtain ⟨hops, last, hchain, -, hdistinct, hstops⟩ := exists_chain w f [] path
  exact ⟨hops, last, hchain, hdistinct, hstops⟩

/-- Loading comes to what the chain comes to. -/
theorem Ends.arrives {path last : Text} {hops : List Hop} (h : Ends w f path hops last) :
    Arrives w f (w.visits hops) hops last (w.load f path) :=
  h.chain.arrives [] h.distinct h.stops

/-- A chain comes to one answer. -/
theorem Arrives.unique {seen : List (Except DiskError Location)} {hops : List Hop} {last : Text}
    {result result' : Except LoadError Loaded} (h : Arrives w f seen hops last result)
    (h' : Arrives w f seen hops last result') : result = result' := by
  cases h with
  | cycle back =>
    cases h' with
    | cycle => rfl
    | story new => exact absurd back new
    | fails new => exact absurd back new
  | story new found =>
    have hcontent := content_eq_story_iff.mpr found
    cases h' with
    | cycle back => exact absurd back new
    | story _ found' =>
      rw [content_eq_story_iff.mpr found'] at hcontent
      cases hcontent
      rfl
    | fails _ found' =>
      rw [content_eq_error_iff.mpr found'] at hcontent
      cases hcontent
  | fails new found =>
    have hcontent := content_eq_error_iff.mpr found
    cases h' with
    | cycle back => exact absurd back new
    | story _ found' =>
      rw [content_eq_story_iff.mpr found'] at hcontent
      cases hcontent
    | fails _ found' =>
      rw [content_eq_error_iff.mpr found'] at hcontent
      cases hcontent
      rfl

/-- What is loaded is the story at the end of the chain. -/
theorem exists_chain_of_load {path : Text} {loaded : Loaded} (h : w.load f path = .ok loaded) :
    ∃ hops, Chain w f path hops loaded.path ∧ IsStory w f loaded.path loaded.story ∧
      loaded.room = startRoom hops loaded.story := by
  obtain ⟨hops, last, hends⟩ := exists_ends w f path
  have harrives := hends.arrives
  rw [h] at harrives
  cases harrives with
  | story new found => exact ⟨hops, hends.chain, found, rfl⟩

/-- A bookmark of a story in another file leads to the story and its own room. -/
theorem load_of_isBookmark {path : Text} {b : Bookmark} {story : Story}
    (hb : IsBookmark w f path b) (hs : IsStory w f b.story story)
    (hne : w.resolve (.ofText b.story) ≠ w.resolve (.ofText path)) :
    w.load f path = .ok ⟨b.story, story, b.room⟩ := by
  have hends : Ends w f path [⟨path, b⟩] b.story :=
    ⟨.hop hb (.stay b.story), by simp [visits], .inr hs.not_isBookmark⟩
  exact hends.arrives.unique (.story (by simpa [visits] using hne) hs)

end World

/-! ## A story with two bookmarks -/

namespace Cellar

/-- From the hall the reader climbs or, by lot, falls into the cellar, where the story
ends. -/
def story : Story where
  rooms := [
    ⟨"hall".toList, "The hall".toList, "It creaks.".toList,
      [.choice ⟨"Climb".toList, "cellar".toList, none⟩,
        .choice ⟨"Fall".toList, "cellar".toList, some "2".toList⟩]⟩,
    ⟨"cellar".toList, "The cellar".toList, "It is dark.".toList, [.ending .success]⟩]
  rooms_ne_nil := List.cons_ne_nil _ _

/-- The lines of the story file after its mark. -/
def lines : List Text :=
  ["Rhall: The hall".toList, "It creaks.".toList, ";;;".toList, ": Climb -> cellar".toList,
    ": Fall -> cellar?2".toList, "Rcellar: The cellar".toList, "It is dark.".toList,
    ";;;".toList, "=)".toList]

/-- A file of lines. -/
def file (ls : List Text) : Node := .file (toBytes (unlines ls))

/-- A disk with the story and two bookmarks, the first of which names the second. -/
def world : World where
  disk.entries := [
    (["outer".toList], file ["#!BOOKMARK".toList, "inner".toList, "hall".toList]),
    (["inner".toList], file ["#!BOOKMARK".toList, "story".toList, "cellar".toList]),
    (["story".toList], file ("#!STORY".toList :: lines))]
  here := []
  home := default
  homes := []
  library := default
  debug? := none

/-- The character for the byte 0xFF. -/
def stray : Char := Char.ofNat 0x10FFFF

theorem readLines_of_node {path : Text} {l : Location} {ls : List Text}
    (hl : world.locate (.ofText path) = .ok l) (hnode : world.disk.node? l = some (file ls))
    (h : ∀ line ∈ ls, IsLine line) : world.readLines path = .ok ls := by
  rw [World.readLines_of_readBytes (World.readBytes_of_locate hl hnode), lines_unlines h]

theorem isStory : World.IsStory world .standard "story".toList story := by
  refine ⟨_, _, readLines_of_node (l := ["story".toList]) rfl rfl ?_, rfl, rfl⟩
  decide

theorem isBookmark_inner : World.IsBookmark world .standard "inner".toList
    ⟨"story".toList, "cellar".toList⟩ := by
  refine ⟨_, _, _, _, readLines_of_node (l := ["inner".toList]) rfl rfl ?_, by decide, by decide,
    by decide, by decide, by decide⟩
  decide

theorem isBookmark_outer : World.IsBookmark world .standard "outer".toList
    ⟨"inner".toList, "hall".toList⟩ := by
  refine ⟨_, _, _, _, readLines_of_node (l := ["outer".toList]) rfl rfl ?_, by decide, by decide,
    by decide, by decide, by decide⟩
  decide

/-- The bookmarks from the outer one to the story. -/
def hops : List World.Hop :=
  [⟨"outer".toList, ⟨"inner".toList, "hall".toList⟩⟩,
    ⟨"inner".toList, ⟨"story".toList, "cellar".toList⟩⟩]

theorem ends_outer : World.Ends world .standard "outer".toList hops "story".toList where
  chain := .hop isBookmark_outer (.hop isBookmark_inner (.stay _))
  distinct := by decide
  stops := .inr isStory.not_isBookmark

theorem load_outer :
    world.load .standard "outer".toList = .ok ⟨"story".toList, story, "hall".toList⟩ :=
  ends_outer.arrives.unique (.story (by decide) isStory)

end Cellar

/-! ## Loading -/

namespace World

/-- From every path a chain of bookmarks ends, and loading answers exactly what that
chain comes to: a loop if its end leads back, whatever is there; else the story at
its end, started where the outermost bookmark says; else the failure of its end, with
the room of the innermost bookmark. -/
theorem load_eq_iff_arrives (w : World) (f : Format) (path : Text) :
    (∃ hops last, Ends w f path hops last) ∧
      ∀ hops last, Ends w f path hops last → ∀ result,
        w.load f path = result ↔ Arrives w f (w.visits hops) hops last result := by
  refine ⟨exists_ends w f path, fun hops last hends result => ⟨?_, ?_⟩⟩
  · rintro rfl
    exact hends.arrives
  · intro harrives
    exact hends.arrives.unique harrives

theorem load_eq_iff_arrives_outer :
    Ends Cellar.world .standard "outer".toList Cellar.hops "story".toList ∧
      Cellar.world.load .standard "outer".toList =
        .ok ⟨"story".toList, Cellar.story, "hall".toList⟩ := by
  have hends := Cellar.ends_outer
  refine ⟨hends, ((load_eq_iff_arrives Cellar.world .standard "outer".toList).2 _ _ hends _).2 ?_⟩
  exact .story (by decide) Cellar.isStory

end World

end Gamebook
