import Ferry.Proofs.Exception.Growth
import Ferry.Proofs.Ownership.Exceptions
import Ferry.Proofs.Ownership.Spared

/-!
# What a builder changes

A builder takes an exception under construction and sets a link or adds a frame.  It works on a
sole reference: on the exception itself if nobody else holds it, and otherwise on a copy.  So it
changes nothing but its result, and its result is linked to by none; whatever else is still alive
afterwards is as it was, with all that it leads to.

Main statements: `Builder.builds`, what a builder comes to; `Builds.preserved`, that it leaves the
rest alone; and `Builder.spares`, what the holders of other references see of it.

## Sections

1. Builders.
2. Building beside the rest.
3. One edit.
4. What a builder comes to.
5. What others see.
-/

namespace Ferry

open Account

/-! ## §1 Builders -/

/-- What is set or added on an exception under construction. -/
inductive Builder where
  | cause (link : ExceptionRef)
  | context (link : ExceptionRef)
  /-- The exception that it was raised from: both links. -/
  | origin (link : ExceptionRef)
  | frame (added : Frame)

namespace Builder

/-- Builds on an exception.  Takes a share of the exception and one of each link. -/
def apply (g : ExceptionGraph) (e : ExceptionRef) : Builder → ExceptionGraph × ExceptionRef
  | cause link => ExceptionGraph.setCause g e link
  | context link => ExceptionGraph.setContext g e link
  | origin link => ExceptionGraph.raiseFrom g e link
  | frame added => ExceptionGraph.addFrame g e added

/-- The exceptions that the result is linked to anew. -/
def links : Builder → List ExceptionRef
  | cause link | context link | origin link => [link]
  | frame _ => []

/-- What becomes of the content of the exception. -/
def edit : Builder → Node → Node
  | cause link => fun node => { node with cause := some link }
  | context link => fun node => { node with context := some link }
  | origin link => fun node => { node with cause := some link, context := some link }
  | frame added => fun node => { node with frames := node.frames ++ [added] }

theorem mem_links_edit (builder : Builder) (node : Node) {link : ExceptionRef}
    (hlink : link ∈ builder.links) : link ∈ (builder.edit node).links := by
  cases builder with
  | cause | context | origin =>
    cases List.mem_singleton.mp hlink
    simp [edit, Node.links]
  | frame => cases hlink

theorem apply_transfer (h : Holdings) (g : ExceptionGraph) (e : ExceptionRef) (builder : Builder) :
    Transfer (h.withExceptions g)
      ({Share.exception e} + (builder.links.map Share.exception : List _))
      (h.withExceptions (builder.apply g e).1) {Share.exception (builder.apply g e).2} := by
  cases builder with
  | cause link => exact ExceptionGraph.setCause_transfer h g e link
  | context link => exact ExceptionGraph.setContext_transfer h g e link
  | origin link => exact ExceptionGraph.raiseFrom_transfer h g e link
  | frame added =>
    exact (ExceptionGraph.addFrame_transfer h g e added).cast (add_zero _) rfl

end Builder

namespace ExceptionGraph

/-! ## §2 Building beside the rest -/

/-- From an exception another was built by editing its content: the exception itself, or a new one.
Other exceptions may have gone, but none was changed, and none was made. -/
structure Builds (g : ExceptionGraph) (e : ExceptionRef) (edit : Node → Node) (g' : ExceptionGraph)
    (e' : ExceptionRef) : Prop where
  size_le : g.cells.size ≤ g'.cells.size
  place : e' = e ∨ g.cells.size ≤ e'.index
  /-- What is shared gives way to a copy. -/
  fresh : 1 < g.holders e → g.cells.size ≤ e'.index
  sole : g'.holders e' ≤ 1
  content : ∀ node', g'.content? e' = some node' →
    ∃ node, g.content? e = some node ∧ node' = edit node
  beside : ∀ x node, x ≠ e' → g'.content? x = some node → g.content? x = some node

variable {g g' g'' : ExceptionGraph} {e e' e'' x : ExceptionRef} {edit edit' : Node → Node}

/-- A builder that goes on with a result works in place. -/
theorem Builds.trans (hfirst : Builds g e edit g' e') (hsecond : Builds g' e' edit' g'' e') :
    Builds g e (edit' ∘ edit) g'' e' where
  size_le := hfirst.size_le.trans hsecond.size_le
  place := hfirst.place
  fresh := hfirst.fresh
  sole := hsecond.sole
  content node'' hnode'' := by
    obtain ⟨node', hnode', rfl⟩ := hsecond.content node'' hnode''
    obtain ⟨node, hnode, rfl⟩ := hfirst.content node' hnode'
    exact ⟨node, hnode, rfl⟩
  beside x node hne hnode := hfirst.beside x node hne (hsecond.beside x node hne hnode)

/-- What is alive before and after is preserved, save the result. -/
theorem Builds.preserved (hbuilds : Builds g e edit g' e') (hclosed' : Closed g')
    (hunlinked : ∀ y, ¬g'.Links y e') (hne : x ≠ e') {node : Node}
    (hlater : g'.content? x = some node) : g.Preserved g' x := by
  intro y hy
  have hspared : y ≠ e' ∧ ∃ node, g'.content? y = some node := by
    induction hy with
    | refl => exact ⟨hne, node, hlater⟩
    | @tail y z _ hlink ih =>
      obtain ⟨hy, found, hfound⟩ := ih
      obtain ⟨linker, hlinker, hmem⟩ := hlink
      rw [hbuilds.beside y found hy hfound] at hlinker
      cases hlinker
      -- The link is still there, so it does not lead to the result.
      have hlink' : g'.Links y z := ⟨_, hfound, hmem⟩
      refine ⟨?_, hclosed' y z hlink'⟩
      rintro rfl
      exact hunlinked y hlink'
  obtain ⟨hne, found, hfound⟩ := hspared
  exact ⟨found, hbuilds.beside y found hne hfound, hfound⟩

/-! ## §3 One edit -/

theorem own_of_sole (hsole : g.holders e ≤ 1) : own g e = (g, e) := by
  unfold own
  split
  · rfl
  · next cell hcell => rw [if_pos ((Pool.holders_of_cell? hcell).symm.trans_le hsole)]

theorem content?_retainAll (g : ExceptionGraph) (refs : List ExceptionRef) (x : ExceptionRef) :
    (retainAll g refs).content? x = g.content? x := by
  induction refs generalizing g with
  | nil => rfl
  | cons ref rest ih => exact (ih (g.retain ref)).trans (Pool.content?_retain g ref x)

theorem size_retainAll (g : ExceptionGraph) (refs : List ExceptionRef) :
    (retainAll g refs).cells.size = g.cells.size := by
  induction refs generalizing g with
  | nil => rfl
  | cons ref rest ih =>
    refine (ih (g.retain ref)).trans ?_
    simp [Pool.retain, Pool.modifyCell]

/-- What is shared is copied, and one share of it is given up. -/
theorem own_of_shared (hshared : 1 < g.holders e) :
    ∃ node, g.content? e = some node ∧
      own g e = ((((retainAll g node.links).insert node).1.release e).1,
        ((retainAll g node.links).insert node).2) := by
  obtain ⟨node, hnode⟩ := Pool.exists_content_of_holders_pos (Nat.zero_lt_of_lt hshared)
  obtain ⟨cell, hcell, rfl⟩ := Pool.content?_eq_some_iff.mp hnode
  rw [Pool.holders_of_cell? hcell] at hshared
  refine ⟨cell.content, hnode, ?_⟩
  simp only [own, hcell, if_neg (Nat.not_le.mpr hshared)]

/-- Making a reference sole edits nothing. -/
theorem builds_own (g : ExceptionGraph) (e : ExceptionRef) :
    Builds g e id (own g e).1 (own g e).2 := by
  have hsole := holders_own_le g e
  rcases Nat.lt_or_ge 1 (g.holders e) with hshared | hlast
  · obtain ⟨node, hnode, howned⟩ := own_of_shared hshared
    rw [howned] at hsole ⊢
    have hnew : ((retainAll g node.links).insert node).2.index = g.cells.size :=
      size_retainAll g node.links
    have hinserted := Pool.grows_insert (retainAll g node.links) node
    have hreleased := Pool.grows_release ((retainAll g node.links).insert node).1 e
    exact
      { size_le := (size_retainAll g node.links).ge.trans
          (hinserted.size_le.trans hreleased.size_le)
        place := Or.inr hnew.ge
        fresh := fun _ => hnew.ge
        sole := hsole
        content := fun copy hcopy => by
          have hbefore := Pool.content?_of_release hcopy
          rw [Pool.content?_insert, if_pos rfl] at hbefore
          exact ⟨node, hnode, (Option.some.inj hbefore).symm⟩
        beside := fun x found hne hfound => by
          have hbefore := Pool.content?_of_release hfound
          rwa [Pool.content?_insert, if_neg hne, content?_retainAll] at hbefore }
  · rw [own_of_sole hlast] at hsole ⊢
    exact
      { size_le := Nat.le_refl _
        place := Or.inl rfl
        fresh := fun hmore => absurd hmore (Nat.not_lt.mpr hlast)
        sole := hsole
        content := fun node hnode => ⟨node, hnode, rfl⟩
        beside := fun _ _ _ hnode => hnode }

/-- Editing a sole reference in place. -/
theorem builds_edit (hsole : g.holders e ≤ 1) (edit : Node → Node) :
    Builds g e edit (g.edit e edit) e where
  size_le := by simp [Pool.edit, Pool.modifyCell]
  place := Or.inl rfl
  fresh hmore := absurd hmore (Nat.not_lt.mpr hsole)
  sole := (Pool.holders_edit g e e edit).trans_le hsole
  content node hnode := by
    rw [Pool.content?_edit, if_pos rfl, Option.map_eq_some_iff] at hnode
    obtain ⟨before, hbefore, rfl⟩ := hnode
    exact ⟨before, hbefore, rfl⟩
  beside x node hne hnode := by
    rwa [Pool.content?_edit, if_neg hne] at hnode

/-- Letting go of others edits nothing. -/
theorem builds_dropAll (hsole : g.holders e ≤ 1) (pending : List ExceptionRef) :
    Builds g e id (dropAll g pending) e where
  size_le := (grows_dropAll g pending).size_le
  place := Or.inl rfl
  fresh hmore := absurd hmore (Nat.not_lt.mpr hsole)
  sole := (holders_dropAll_le g pending e).trans hsole
  content node hnode := ⟨node, content?_of_dropAll hnode, rfl⟩
  beside _ _ _ hnode := content?_of_dropAll hnode

/-- One edit: the reference is made sole, the exception is edited, and what was replaced goes. -/
theorem builds_owned (g : ExceptionGraph) (e : ExceptionRef) (edit : Node → Node)
    (replaced : List ExceptionRef) :
    Builds g e edit (dropAll ((own g e).1.edit (own g e).2 edit) replaced) (own g e).2 := by
  have howned := builds_own g e
  have hedited := howned.trans (builds_edit howned.sole edit)
  exact hedited.trans (builds_dropAll hedited.sole replaced)

/-! ## §4 What a builder comes to -/

/-- Sharing edits nothing, and what is shared already stays so. -/
theorem Builds.of_retain {ref : ExceptionRef} (hbuilds : Builds (g.retain ref) e edit g' e') :
    Builds g e edit g' e' where
  size_le := (Pool.grows_retain g ref).size_le.trans hbuilds.size_le
  place := hbuilds.place.imp_right (Pool.grows_retain g ref).size_le.trans
  fresh hmore := (Pool.grows_retain g ref).size_le.trans
    (hbuilds.fresh (hmore.trans_le (Pool.le_holders_retain g ref e)))
  sole := hbuilds.sole
  content node hnode := by
    obtain ⟨before, hbefore, heq⟩ := hbuilds.content node hnode
    exact ⟨before, (Pool.content?_retain g ref e).symm.trans hbefore, heq⟩
  beside x node hne hnode :=
    (Pool.content?_retain g ref x).symm.trans (hbuilds.beside x node hne hnode)

end ExceptionGraph

open ExceptionGraph

namespace Builder

/-- Every builder comes to one exception that is edited, and to nothing else. -/
theorem builds (builder : Builder) (g : ExceptionGraph) (e : ExceptionRef) :
    Builds g e builder.edit (builder.apply g e).1 (builder.apply g e).2 := by
  cases builder with
  | cause link => exact builds_owned g e _ _
  | context link => exact builds_owned g e _ _
  | origin link =>
    have hcaused : Builds (g.retain link) e (cause link).edit (setCause (g.retain link) e link).1
      (setCause (g.retain link) e link).2 := builds_owned _ _ _ _
    show Builds g e _ (setContext (setCause (g.retain link) e link).1
      (setCause (g.retain link) e link).2 link).1 (setContext (setCause (g.retain link) e link).1
      (setCause (g.retain link) e link).2 link).2
    generalize setCause (g.retain link) e link = caused at hcaused
    have hcontexted : Builds caused.1 caused.2 (context link).edit
      (setContext caused.1 caused.2 link).1 (setContext caused.1 caused.2 link).2 :=
      builds_owned _ _ _ _
    -- Setting the first link has made the reference sole, so the second is set in place.
    have hplace : (setContext caused.1 caused.2 link).2 = caused.2 := by
      rw [setContext, own_of_sole hcaused.sole]
    rw [hplace] at hcontexted ⊢
    exact (hcaused.trans hcontexted).of_retain
  | frame added =>
    have hframed := builds_owned g e (frame added).edit []
    rw [dropAll_nil] at hframed
    exact hframed

/-! ## §5 What others see -/

/-- What a builder does, as seen through all other references there are. -/
structure Spares (builder : Builder) (h : Holdings) (e : ExceptionRef) (rest : Multiset Share)
    (h' : Holdings) (e' : ExceptionRef) : Prop where
  /-- The result has what the exception had, edited. -/
  result : ∃ node, h.exceptions.content? e = some node ∧
    h'.exceptions.content? e' = some (builder.edit node)
  /-- The result is the exception itself or a new one. -/
  place : e' = e ∨ h.exceptions.cells.size ≤ e'.index
  /-- If the exception is shared, the result is a new one. -/
  fresh : 1 < h.exceptions.holders e → h.exceptions.cells.size ≤ e'.index
  /-- Nothing but exceptions is touched. -/
  others : h' = h.withExceptions h'.exceptions
  /-- Another share in hand is not of the result, and what it is of is as it was. -/
  inHand : ∀ x, Share.exception x ∈ rest → x ≠ e' ∧ h.exceptions.Preserved h'.exceptions x
  /-- So it is with the exceptions of live entries, -/
  entries : ∀ r handle x, (h.registry r).borrow handle = .ok (.exception x) →
    x ≠ e' ∧ h.exceptions.Preserved h'.exceptions x
  /-- with what another exception that is kept is linked to, -/
  linked : ∀ y x, y ≠ e' → (∃ node, h'.exceptions.content? y = some node) →
    h.exceptions.Links y x → x ≠ e' ∧ h.exceptions.Preserved h'.exceptions x
  /-- and with what the result is linked to anew. -/
  given : ∀ link ∈ builder.links, link ≠ e' ∧ h.exceptions.Preserved h'.exceptions link

/-- A builder on shares in hand spares all other references. -/
theorem spares (builder : Builder) {h : Holdings} {e : ExceptionRef} {rest : Multiset Share}
    {d : Dealings}
    (ha : Consistent
      ⟨h, {Share.exception e} + (builder.links.map Share.exception : List _) + rest, d⟩) :
    builder.Spares h e rest (h.withExceptions (builder.apply h.exceptions e).1)
      (builder.apply h.exceptions e).2 := by
  have hbuilds := builder.builds h.exceptions e
  have hafter := (builder.apply_transfer h h.exceptions e rest d ha).consistent ha
  generalize builder.apply h.exceptions e = applied at hbuilds hafter ⊢
  obtain ⟨g, e'⟩ := applied
  -- The result is in hand and has no other holder, so nothing that is held is the result.
  have hnone : (h.withExceptions g).held (.exception e') = 0 :=
    hafter.held_eq_zero (by simp) hbuilds.sole
  have hunlinked : ∀ y, ¬g.Links y e' := fun y hlink =>
    absurd (held_pos_of_links (h := h.withExceptions g) hlink) (hnone ▸ Nat.lt_irrefl 0)
  obtain ⟨later, hlater⟩ := hafter.exists_content_of_hand (e := e') (by simp)
  obtain ⟨node, hnode, rfl⟩ := hbuilds.content later hlater
  have hspared : ∀ x, x ≠ e' → (∃ node, g.content? x = some node) →
      h.exceptions.Preserved g x := fun x hne hx =>
    hbuilds.preserved hafter.closed hunlinked hne hx.choose_spec
  refine
    { result := ⟨node, hnode, hlater⟩
      place := hbuilds.place
      fresh := hbuilds.fresh
      others := rfl
      inHand := fun x hx => ?_
      entries := fun r handle x hborrow => ?_
      linked := fun y x hne hy hlink => ?_
      given := fun link hlink => ?_ }
  · have hne : x ≠ e' := by
      rintro rfl
      exact hafter.notMem_of_sole hbuilds.sole hx
    exact ⟨hne, hspared x hne (hafter.exists_content_of_hand (Multiset.mem_add.mpr (Or.inr hx)))⟩
  · have hborrow' : ((h.withExceptions g).registry r).borrow handle = .ok (.exception x) := hborrow
    have hheld : 0 < (h.withExceptions g).held (.exception x) := Holdings.held_pos_of_borrow hborrow'
    have hne : x ≠ e' := by
      rintro rfl
      omega
    exact ⟨hne, hspared x hne (hafter.exists_content_of_held hheld)⟩
  · have hpreserved := hspared y hne hy
    obtain ⟨found, hfound, hmem⟩ := hlink
    have hlink' : g.Links y x := ⟨found, hpreserved.content_eq hfound, hmem⟩
    refine ⟨?_, hpreserved.of_links ⟨found, hfound, hmem⟩⟩
    rintro rfl
    exact hunlinked y hlink'
  · have hlink' : g.Links e' link := ⟨_, hlater, builder.mem_links_edit node hlink⟩
    have hne : link ≠ e' := by
      rintro rfl
      exact hunlinked _ hlink'
    exact ⟨hne, hspared link hne (hafter.closed e' link hlink')⟩

end Builder

end Ferry
