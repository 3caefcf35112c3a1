import Ferry.Proofs.Exception.Spelling
import Ferry.Proofs.Ownership.Exceptions
import Ferry.Proofs.Ownership.Spared
import Mathlib.Data.List.Induction

/-!
# Outlines and what is built from them

However an outline came about, it is the outcome of pushes: it is determined by the kinds and
messages of its links, and each link is raised from the one before.  Building it makes an exception
whose chain spells these kinds and messages, the last link outermost; and the outline of that
exception is the outline it was built from.

While an outline is being built, every link has a share of its own, and the exception of the link
that was built last spells all links so far (`Raising`).  Giving up the shares of all others changes
nothing: the outermost exception holds them.

Main statements: `Drawn.eq_ofEntries`, `spells_of_build` and `ofException_of_spells`.

## Sections

1. Rows of pushes.
2. Drawn outlines.
3. Link by link.
4. What is built.
5. Outlines of exceptions.
-/

namespace Ferry

open Account ExceptionGraph Holdings

namespace Outline

/-! ## §1 Rows of pushes -/

/-- The kinds and messages of the links, innermost first. -/
def entries (outline : Outline) : List (Kind × String) :=
  outline.links.toList.map fun link => (link.kind, link.message)

/-- The outline to which kinds and messages are pushed in turn. -/
def ofEntries (entries : List (Kind × String)) : Outline :=
  entries.foldl (fun outline entry => outline.push entry.1 entry.2) empty

theorem ofEntries_concat (row : List (Kind × String)) (entry : Kind × String) :
    ofEntries (row ++ [entry]) = (ofEntries row).push entry.1 entry.2 := by
  rw [ofEntries, List.foldl_append]
  rfl

/-- The link that is pushed to an outline of a size. -/
def linkAt (place : Nat) (entry : Kind × String) : OutlineLink :=
  { kind := entry.1, message := entry.2, cause := if place = 0 then none else some (place - 1) }

theorem links_push (outline : Outline) (entry : Kind × String) :
    (outline.push entry.1 entry.2).links = outline.links.push (linkAt outline.size entry) :=
  rfl

/-- Each entry is a link in its place. -/
theorem links_ofEntries (row : List (Kind × String)) :
    (ofEntries row).links.toList = row.mapIdx linkAt := by
  induction row using List.reverseRecOn with
  | nil => rfl
  | append_singleton row entry ih =>
    have hsize : (ofEntries row).size = row.length := by
      rw [size, ← Array.length_toList, ih, List.length_mapIdx]
    rw [ofEntries_concat, links_push, Array.toList_push, ih, hsize, List.mapIdx_append]
    simp

@[simp] theorem size_ofEntries (row : List (Kind × String)) :
    (ofEntries row).size = row.length := by
  rw [size, ← Array.length_toList, links_ofEntries, List.length_mapIdx]

@[simp] theorem entries_ofEntries (row : List (Kind × String)) :
    (ofEntries row).entries = row := by
  rw [entries, links_ofEntries]
  refine List.ext_getElem? fun i => ?_
  rw [List.getElem?_map, List.getElem?_mapIdx, Option.map_map]
  exact Option.map_id'

/-! ## §2 Drawn outlines -/

/-- How outlines come about.  A clone of an outline is the same outline. -/
inductive Drawn : Outline → Prop where
  | empty : Drawn empty
  | ofException (g : ExceptionGraph) (e : ExceptionRef) : Drawn (ofException g e)
  | push {outline : Outline} (hdrawn : Drawn outline) (kind : Kind) (message : String) :
      Drawn (outline.push kind message)

/-- What an exception adds to an outline is what it says. -/
theorem foldl_pushNode (g : ExceptionGraph) (row : List (Kind × String))
    (es : List ExceptionRef) :
    es.foldl (pushNode g) (ofEntries row) = ofEntries (row ++ es.filterMap g.heading?) := by
  induction es generalizing row with
  | nil => rw [List.filterMap_nil, List.append_nil]; rfl
  | cons e es ih =>
    rw [List.foldl_cons, List.filterMap_cons]
    cases hnode : g.content? e with
    | none => 
      have hskip : pushNode g (ofEntries row) e = ofEntries row := by simp only [pushNode, hnode]
      simp only [hskip, ih, heading?, hnode, Option.map_none]
    | some node =>
      have hpush : pushNode g (ofEntries row) e = ofEntries (row ++ [node.heading]) := by
        rw [ofEntries_concat]
        simp only [pushNode, hnode]
        rfl
      simp only [hpush, ih, heading?, hnode, Option.map_some, List.append_assoc]
      rfl

theorem ofException_eq (g : ExceptionGraph) (e : ExceptionRef) :
    ofException g e = ofEntries ((chain g e).reverse.filterMap g.heading?) :=
  foldl_pushNode g [] (chain g e).reverse

/-- An outline is determined by its entries. -/
theorem Drawn.eq_ofEntries {outline : Outline} (hdrawn : Drawn outline) :
    outline = ofEntries outline.entries := by
  have hrow : ∃ row, outline = ofEntries row := by
    induction hdrawn with
    | empty => exact ⟨[], rfl⟩
    | ofException g e => exact ⟨_, ofException_eq g e⟩
    | push _ kind message ih =>
      obtain ⟨row, rfl⟩ := ih
      exact ⟨row ++ [(kind, message)], (ofEntries_concat row (kind, message)).symm⟩
  obtain ⟨row, rfl⟩ := hrow
  rw [entries_ofEntries]

/-- Each link is raised from the one before. -/
theorem Drawn.cause_eq {outline : Outline} (hdrawn : Drawn outline) {i : Nat} {link : OutlineLink}
    (hlink : outline.links[i]? = some link) :
    link.cause = if i = 0 then none else some (i - 1) := by
  rw [hdrawn.eq_ofEntries, ← Array.getElem?_toList, links_ofEntries, List.getElem?_mapIdx,
    Option.map_eq_some_iff] at hlink
  obtain ⟨entry, _, rfl⟩ := hlink
  rfl

/-! ## §3 Link by link -/

/-- A new exception that is raised from one that is alive has it as cause and as context, and
nothing that is alive changes. -/
theorem raiseFrom_create {g : ExceptionGraph} {inner : ExceptionRef} {node : Node}
    (halive : g.content? inner = some node) (entry : Kind × String) :
    ∃ raised e,
      raiseFrom ((create g entry.1 entry.2).1.retain inner) (create g entry.1 entry.2).2 inner
          = (raised, e) ∧
        raised.content? e = some (plainNode entry (some inner)) ∧
        ∀ x node, g.content? x = some node → raised.content? x = some node := by
  have hfresh : ∀ x node, g.content? x = some node → x ≠ (create g entry.1 entry.2).2 := by
    rintro x node hx rfl
    exact absurd (Pool.index_lt_of_content hx) (Nat.lt_irrefl _)
  obtain ⟨made, e, hmade, hcell, -⟩ := create_new g entry.1 entry.2
  have hmade_content : ∀ x node, g.content? x = some node → made.content? x = some node := by
    intro x node hx
    have hinserted : (create g entry.1 entry.2).1.content? x = some node := by
      rw [create, Pool.content?_insert]
      exact (if_neg (hfresh x node hx)).trans hx
    rwa [hmade] at hinserted
  rw [hmade] at hfresh ⊢
  have hne : e ≠ inner := (hfresh inner node halive).symm
  have hshared : (made.retain inner).cell? e = _ := (Pool.cell?_retain made inner e).trans
    (if_neg hne)
  rw [hcell] at hshared
  obtain ⟨raised, hraised, hraised_cell, hothers, -⟩ := raiseFrom_new hshared hne
  refine ⟨raised, e, hraised, ?_, fun x node hx => ?_⟩
  · rw [Pool.content?, hraised_cell]
    rfl
  · rw [Pool.content?, hothers x (hfresh x node hx)]
    show ((made.retain inner).retain inner).content? x = _
    rw [Pool.content?_retain, Pool.content?_retain]
    exact hmade_content x node hx

/-- So far as an outline is built, every link has its exception, and the last one spells all of
them. -/
structure Raising (state : ExceptionGraph × Array ExceptionRef) (row : List (Kind × String)) :
    Prop where
  size_eq : state.2.size = row.length
  spells : ∀ e, state.2.back? = some e → state.1.Spells e row.reverse

/-- The exception of a first link is raised from none. -/
theorem raising_first (g : ExceptionGraph) (entry : Kind × String) :
    Raising (buildLink (g, #[]) (linkAt 0 entry)) [entry] := by
  obtain ⟨made, e, hmade, hcell, -⟩ := create_new g entry.1 entry.2
  have hbuilt : buildLink (g, #[]) (linkAt 0 entry) = (made, #[e]) := by
    simp [buildLink, linkAt, hmade]
  have hnode : made.content? e = some (plainNode entry none) := by
    rw [Pool.content?, hcell]
    rfl
  rw [hbuilt]
  refine ⟨rfl, fun last hlast => ?_⟩
  cases hlast
  exact .innermost hnode

/-- The exception of each further link is raised from the last one. -/
theorem Raising.buildLink {state : ExceptionGraph × Array ExceptionRef}
    {row : List (Kind × String)} (hraising : Raising state row) (hne : row ≠ [])
    (entry : Kind × String) :
    Raising (buildLink state (linkAt row.length entry)) (row ++ [entry]) := by
  obtain ⟨g, built⟩ := state
  have hsize : built.size = row.length := hraising.size_eq
  have hpos : row.length ≠ 0 := fun hzero => hne (List.length_eq_zero_iff.mp hzero)
  obtain ⟨inner, hinner⟩ : ∃ inner, built[row.length - 1]? = some inner :=
    ⟨_, Array.getElem?_eq_getElem (by omega)⟩
  have hspells := hraising.spells inner (by rw [Array.back?_eq_getElem?, hsize, hinner])
  obtain ⟨node, hnode⟩ := hspells.exists_content
  obtain ⟨raised, e, hraised, hcontent, hsame⟩ := raiseFrom_create hnode entry
  have hbuilt : Outline.buildLink (g, built) (linkAt row.length entry) = (raised, built.push e) := by
    simp only [Outline.buildLink, linkAt, if_neg hpos, Option.bind_some, hinner, hraised]
  rw [hbuilt]
  refine ⟨by simp [hsize], fun last hlast => ?_⟩
  rw [Array.back?_push] at hlast
  cases hlast
  rw [List.reverse_concat]
  exact .outer hcontent (hspells.of_content hsame)

/-- When all links are built, the exception of the last one spells the outline. -/
theorem raising_ofEntries (g : ExceptionGraph) (row : List (Kind × String)) :
    Raising ((ofEntries row).links.foldl buildLink (g, #[])) row := by
  induction row using List.reverseRecOn with
  | nil => exact ⟨rfl, fun e he => by cases he⟩
  | append_singleton row entry ih =>
    rw [ofEntries_concat, links_push, size_ofEntries, Array.foldl_push]
    cases row with
    | nil => exact raising_first g entry
    | cons first row => exact ih.buildLink (List.cons_ne_nil first row) entry

/-! ## §4 What is built -/

variable {h : Holdings} {rest : Multiset Share} {d : Dealings}

/-- From an outline without links nothing is built, and from every other something is. -/
theorem build_eq_none_iff (g : ExceptionGraph) (row : List (Kind × String)) :
    ((ofEntries row).build g).2 = none ↔ row = [] := by
  have hsize := (raising_ofEntries g row).size_eq
  rw [build, Array.back?_eq_none_iff, Array.eq_empty_iff_size_eq_zero, hsize,
    List.length_eq_zero_iff]

/-- What is built is in hand. -/
theorem consistent_build (ha : Consistent ⟨h, rest, d⟩) (outline : Outline) :
    Consistent ⟨h.withExceptions (outline.build h.exceptions).1,
      ((outline.build h.exceptions).2.toList.map Share.exception : List _) + rest, d⟩ :=
  (build_transfer h h.exceptions outline).made ha

/-- What is built spells the outline, the last link outermost. -/
theorem spells_of_build (ha : Consistent ⟨h, rest, d⟩) (row : List (Kind × String))
    {e : ExceptionRef} (hbuilt : ((ofEntries row).build h.exceptions).2 = some e) :
    ((ofEntries row).build h.exceptions).1.Spells e row.reverse := by
  have hspells := (raising_ofEntries h.exceptions row).spells e hbuilt
  have hmiddle := (foldl_buildLink_transfer h (ofEntries row).links (h.exceptions, #[])).made ha
  have hend := consistent_build ha (ofEntries row)
  rw [hbuilt] at hend
  -- The outermost exception is in hand, so giving up the others leaves all that it leads to.
  obtain ⟨node, hnode⟩ := hspells.exists_content
  obtain ⟨later, hlater⟩ := hend.exists_content_of_hand (e := e) (by simp)
  exact hspells.of_preserved
    (preserved_of_grows (grows_dropAll _ _) hmiddle.closed hend.closed hnode hlater)

/-! ## §5 Outlines of exceptions -/

variable {g : ExceptionGraph} {e : ExceptionRef}

/-- The outline of an exception has what its chain says, innermost first. -/
theorem ofException_of_headings {row : List (Kind × String)}
    (hheadings : headings g e = row.reverse.map some) : ofException g e = ofEntries row := by
  have hread : (chain g e).filterMap g.heading? = row.reverse := by
    calc (chain g e).filterMap g.heading?
        = (headings g e).filterMap id := by rw [headings, List.filterMap_map]; rfl
      _ = (row.reverse.map some).filterMap id := by rw [hheadings]
      _ = row.reverse := by rw [List.filterMap_map]; exact List.filterMap_some
  rw [ofException_eq, List.filterMap_reverse, hread, List.reverse_reverse]

/-- Every exception of the chain of one that is alive says something. -/
theorem exists_headings (hfounded : Founded g) (hclosed : Closed g) {node : Node}
    (hnode : g.content? e = some node) :
    ∃ row : List (Kind × String), row ≠ [] ∧ headings g e = row.reverse.map some := by
  obtain ⟨chain, hchain⟩ := hfounded.exists_isChain e
  have hsaid : ∀ x ∈ chain, (g.heading? x).isSome := by
    intro x hx
    obtain ⟨found, hfound⟩ := hchain.alive hclosed hnode hx
    rw [heading?, hfound]
    rfl
  refine ⟨(chain.pmap (fun x hx => (g.heading? x).get hx) hsaid).reverse, ?_, ?_⟩
  · cases hchain <;> simp
  · rw [headings, hchain.chain_eq hclosed hnode, List.reverse_reverse, List.map_pmap]
    simp only [Option.some_get, List.pmap_eq_map]

end Outline

end Ferry
