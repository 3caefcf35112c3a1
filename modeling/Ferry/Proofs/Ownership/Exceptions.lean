import Ferry.Bridge.Draft
import Ferry.Outline
import Ferry.Proofs.Ownership.Transfer
import Ferry.Script.ExceptionCommand

/-!
# Shares of exceptions

The builders of exceptions as transfers.  A builder takes a share of the exception it builds on and
one of each exception it links to, and hands out a share of what it made.  Editing is confined to
`own`, which first sees to it that nobody else holds the exception.

Main statements: `own_transfer`, `raiseFrom_transfer`, `Draft.build_transfer`, and
`Outline.build_transfer`.

## Sections

1. Sole references.
2. Builders.
3. Drafts.
4. Outlines.
-/

namespace Ferry

/-! ## §1 Sole references -/

namespace ExceptionGraph

variable {h : Holdings} {g : ExceptionGraph}

theorem le_holders_retainAll (g : ExceptionGraph) (refs : List ExceptionRef) (e : ExceptionRef) :
    g.holders e ≤ (retainAll g refs).holders e := by
  induction refs generalizing g with
  | nil => exact Nat.le_refl _
  | cons ref rest ih => exact (Pool.le_holders_retain g ref e).trans (ih (g.retain ref))

theorem retainAll_transfer {refs : List ExceptionRef} (hpos : ∀ e ∈ refs, 0 < g.holders e)
    (A : Multiset Share) :
    Transfer (h.withExceptions g) A (h.withExceptions (retainAll g refs))
      ((refs.map Share.exception : Multiset Share) + A) := by
  induction refs generalizing g A with
  | nil => exact (Transfer.refl _ A).cast rfl (zero_add A).symm
  | cons ref rest ih =>
    -- Sharing the first takes no holder from the others.
    have hshare : Transfer (h.withExceptions g) A (h.withExceptions (g.retain ref))
        ({Share.exception ref} + A) :=
      Transfer.share (h := h.withExceptions g) (s := .exception ref) (hpos ref List.mem_cons_self) A
    have hrest : ∀ e ∈ rest, 0 < (g.retain ref).holders e := fun e he =>
      (hpos e (List.mem_cons_of_mem _ he)).trans_le (Pool.le_holders_retain g ref e)
    refine hshare.trans ((ih hrest _).cast rfl ?_)
    rw [List.map_cons, ← Multiset.cons_coe, ← Multiset.singleton_add]
    abel

/-- What an exception links to has a holder. -/
theorem holders_pos_of_link {rest : Multiset Share} {d : Dealings}
    (ha : Account.Consistent ⟨h.withExceptions g, rest, d⟩) {e link : ExceptionRef} {node : Node}
    (hnode : g.content? e = some node) (hlink : link ∈ node.links) : 0 < g.holders link := by
  have hle := Pool.le_weight (w := fun node : Node => node.shares.count (.exception link)) hnode
  have hcount : 0 < node.shares.count (.exception link) :=
    List.count_pos_iff.mpr (List.mem_map_of_mem hlink)
  have hheld : 0 < (h.withExceptions g).held (.exception link) := by
    unfold Holdings.held
    have : (h.withExceptions g).heldByExceptions (.exception link)
      = g.weight fun node => node.shares.count (.exception link) := rfl
    omega
  exact ha.holders_pos_of_held hheld

/-- Nobody else holds a sole reference. -/
theorem holders_own_le (g : ExceptionGraph) (e : ExceptionRef) :
    (own g e).1.holders (own g e).2 ≤ 1 := by
  unfold own
  split
  · next hnone => simp [Pool.holders, hnone]
  · next cell hcell =>
    split
    · next hlast => exact (Pool.holders_of_cell? hcell).trans_le hlast
    · -- A copy is held by the one who made it.
      have hmade := Pool.cell?_insert (retainAll g cell.content.links) cell.content
        ((retainAll g cell.content.links).insert cell.content).2
      rw [if_pos rfl] at hmade
      rw [Pool.holders_release, Pool.holders_of_cell? hmade]
      exact Nat.sub_le 1 _

/-- Making a reference sole uses up the share that it had. -/
theorem own_transfer (h : Holdings) (g : ExceptionGraph) (e : ExceptionRef) :
    Transfer (h.withExceptions g) {Share.exception e} (h.withExceptions (own g e).1)
      {Share.exception (own g e).2} := by
  refine Transfer.of_consistent fun ⟨rest, d, ha⟩ => ?_
  unfold own
  split
  · exact Transfer.refl _ _
  · rename_i cell hcell
    split
    · exact Transfer.refl _ _
    · rename_i hshared
      have hnode : g.content? e = some cell.content := by simp [Pool.content?, hcell]
      -- The copy needs a share of everything that the original links to.
      have hretain := retainAll_transfer (h := h) (fun link => holders_pos_of_link ha hnode)
        {Share.exception e}
      have hcopy := (Transfer.newNode (h.withExceptions (retainAll g cell.content.links))
        cell.content).frame {Share.exception e}
      have hletGo := (Transfer.letGo (h.withExceptions
        ((retainAll g cell.content.links).insert cell.content).1) (.exception e)).frame
          {Share.exception ((retainAll g cell.content.links).insert cell.content).2}
      -- The share given up was not the last, so nothing is set free with it.
      have hmore : 1 < ((retainAll g cell.content.links).insert cell.content).1.holders e := by
        rw [Pool.holders_insert]
        have hle := le_holders_retainAll g cell.content.links e
        rw [Pool.holders_of_cell? hcell] at hle
        omega
      refine hretain.trans (hcopy.trans ?_)
      refine hletGo.cast (add_comm _ _) ?_
      show ((departing (Pool.release _ e).2).map Share.exception : Multiset Share) + _ = _
      rw [Holdings.exceptions_withExceptions, Pool.release_snd_of_one_lt hmore]
      exact zero_add _

/-! ## §2 Builders -/

theorem create_transfer (h : Holdings) (g : ExceptionGraph) (kind : Kind) (message : String) :
    Transfer (h.withExceptions g) 0 (h.withExceptions (create g kind message).1)
      {Share.exception (create g kind message).2} :=
  Transfer.newNode (h.withExceptions g) { kind, message }

/-- Editing a sole exception in hand trades the shares that it holds. -/
theorem edit_transfer {e : ExceptionRef} (hsole : g.holders e ≤ 1) (f : Node → Node)
    {A B : Multiset Share}
    (htrade : ∀ node, g.content? e = some node →
      A + (node.shares : Multiset Share) = B + ((f node).shares : Multiset Share)) :
    Transfer (h.withExceptions g) ({Share.exception e} + A) (h.withExceptions (g.edit e f))
      ({Share.exception e} + B) := by
  refine Transfer.of_consistent fun ⟨rest, d, ha⟩ => ?_
  obtain ⟨node, hnode⟩ := Pool.exists_content_of_holders_pos
    (ha.holders_pos (s := .exception e) (by simp))
  have htraded : ({Share.exception e} + A) + (node.shares : Multiset Share)
      = ({Share.exception e} + B) + ((f node).shares : Multiset Share) := by
    rw [add_assoc, htrade node hnode, ← add_assoc]
  exact Transfer.relink (h := h.withExceptions g) hnode f htraded (by simp) hsole

/-- Exchanging what one of the links of an exception leads to. -/
theorem exchange_transfer (h : Holdings) (g : ExceptionGraph) (e link : ExceptionRef)
    (old : Node → Option ExceptionRef) (exchange : Node → Node)
    (htrade : ∀ node : Node, {Share.exception link} + (node.shares : Multiset Share)
      = ((old node).toList.map Share.exception : List _) + ((exchange node).shares : List _)) :
    Transfer (h.withExceptions g) ({Share.exception e} + {Share.exception link})
      (h.withExceptions (dropAll ((own g e).1.edit (own g e).2 exchange)
        (((own g e).1.content? (own g e).2).bind old).toList))
      {Share.exception (own g e).2} := by
  have hown := (own_transfer h g e).frame {Share.exception link}
  have hsole := holders_own_le g e
  -- From here on the reference is sole, whatever making it so took.
  refine hown.trans ?_
  generalize own g e = owned at hsole
  have hedit := edit_transfer (h := h) hsole exchange
    (A := {Share.exception link})
    (B := (((owned.1.content? owned.2).bind old).toList.map Share.exception : List _)) ?_
  · exact hedit.dropping (Holdings.dropAll_transfer h _ _)
  · intro node hnode
    rw [hnode, Option.bind_some]
    exact htrade node

theorem setCause_transfer (h : Holdings) (g : ExceptionGraph) (e cause : ExceptionRef) :
    Transfer (h.withExceptions g) ({Share.exception e} + {Share.exception cause})
      (h.withExceptions (setCause g e cause).1) {Share.exception (setCause g e cause).2} := by
  apply exchange_transfer h g e cause Node.cause
  intro node
  simp only [Node.shares, Node.links, List.map_append, ← Multiset.coe_add]
  show _ = _ + ({Share.exception cause} + _)
  abel

theorem setContext_transfer (h : Holdings) (g : ExceptionGraph) (e context : ExceptionRef) :
    Transfer (h.withExceptions g) ({Share.exception e} + {Share.exception context})
      (h.withExceptions (setContext g e context).1)
      {Share.exception (setContext g e context).2} := by
  apply exchange_transfer h g e context Node.context
  intro node
  simp only [Node.shares, Node.links, List.map_append, ← Multiset.coe_add]
  show _ = _ + (_ + {Share.exception context})
  abel

theorem raiseFrom_transfer (h : Holdings) (g : ExceptionGraph) (e cause : ExceptionRef) :
    Transfer (h.withExceptions g) ({Share.exception e} + {Share.exception cause})
      (h.withExceptions (raiseFrom g e cause).1) {Share.exception (raiseFrom g e cause).2} := by
  -- One share of the other exception goes into each link.
  have hretain : Transfer (h.withExceptions g) ({Share.exception e} + {Share.exception cause})
      (h.withExceptions (g.retain cause))
      ({Share.exception cause} + ({Share.exception e} + {Share.exception cause})) :=
    Transfer.share_of_mem (h := h.withExceptions g) (s := .exception cause) (by simp)
  have hcause := (setCause_transfer h (g.retain cause) e cause).frame {Share.exception cause}
  refine hretain.trans ((hcause.cast (add_comm _ _) rfl).trans ?_)
  exact setContext_transfer h _ _ cause

theorem addFrame_transfer (h : Holdings) (g : ExceptionGraph) (e : ExceptionRef) (frame : Frame) :
    Transfer (h.withExceptions g) {Share.exception e} (h.withExceptions (addFrame g e frame).1)
      {Share.exception (addFrame g e frame).2} := by
  refine (own_transfer h g e).trans ?_
  have hedit := edit_transfer (h := h) (holders_own_le g e)
    (fun node => { node with frames := node.frames ++ [frame] }) (A := 0) (B := 0)
    (fun node _ => rfl)
  exact hedit.cast (add_zero _).symm (add_zero _)

end ExceptionGraph

/-! ## §3 Drafts -/

/-- Making two exceptions and joining them leaves the share of one. -/
theorem Draft.join_transfer {h : Holdings} {g first second : ExceptionGraph}
    {e other : ExceptionRef} {A : Multiset Share} {joined : ExceptionGraph × ExceptionRef}
    (hfirst : Transfer (h.withExceptions g) A (h.withExceptions first) ({Share.exception e} + A))
    (hsecond : Transfer (h.withExceptions first) ({Share.exception e} + A)
      (h.withExceptions second) ({Share.exception other} + ({Share.exception e} + A)))
    (hjoin : Transfer (h.withExceptions second) ({Share.exception e} + {Share.exception other})
      (h.withExceptions joined.1) {Share.exception joined.2}) :
    Transfer (h.withExceptions g) A (h.withExceptions joined.1)
      ({Share.exception joined.2} + A) := by
  refine hfirst.trans (hsecond.trans ((hjoin.frame A).cast ?_ rfl))
  abel

/-- Making an exception out of given ones uses up no share of them. -/
theorem Draft.build_transfer {α : Type} (h : Holdings) (g : ExceptionGraph)
    (refs : α → ExceptionRef) {A : Multiset Share} (draft : Draft α)
    (hrefs : ∀ a ∈ draft.names, Share.exception (refs a) ∈ A) :
    Transfer (h.withExceptions g) A (h.withExceptions (draft.build g refs).1)
      ({Share.exception (draft.build g refs).2} + A) := by
  -- The exceptions made so far stay in hand while the next is made.
  induction draft generalizing g A with
  | given source =>
    exact Transfer.share_of_mem (h := h.withExceptions g) (hrefs source (List.mem_singleton_self _))
  | fresh kind message =>
    exact (ExceptionGraph.create_transfer h g kind message).onTop A
  | setCause outer cause ihOuter ihCause =>
    exact join_transfer (ihOuter g fun a ha => hrefs a (List.mem_append_left _ ha))
      (ihCause _ fun a ha => Multiset.mem_add.mpr (Or.inr (hrefs a (List.mem_append_right _ ha))))
      (ExceptionGraph.setCause_transfer h _ _ _)
  | setContext outer context ihOuter ihContext =>
    exact join_transfer (ihOuter g fun a ha => hrefs a (List.mem_append_left _ ha))
      (ihContext _ fun a ha => Multiset.mem_add.mpr (Or.inr (hrefs a (List.mem_append_right _ ha))))
      (ExceptionGraph.setContext_transfer h _ _ _)
  | raiseFrom outer cause ihOuter ihCause =>
    exact join_transfer (ihOuter g fun a ha => hrefs a (List.mem_append_left _ ha))
      (ihCause _ fun a ha => Multiset.mem_add.mpr (Or.inr (hrefs a (List.mem_append_right _ ha))))
      (ExceptionGraph.raiseFrom_transfer h _ _ _)
  | addFrame outer frame ih =>
    refine (ih g hrefs).trans ?_
    exact (ExceptionGraph.addFrame_transfer h _ _ frame).frame A

/-! ## §4 Outlines -/

namespace Outline

/-- Building a link keeps the shares of all that is built in hand. -/
theorem buildLink_transfer (h : Holdings) (state : ExceptionGraph × Array ExceptionRef)
    (link : OutlineLink) :
    Transfer (h.withExceptions state.1) (state.2.toList.map Share.exception : List _)
      (h.withExceptions (buildLink state link).1)
      ((buildLink state link).2.toList.map Share.exception : List _) := by
  obtain ⟨g, built⟩ := state
  have hcreate := (ExceptionGraph.create_transfer h g link.kind link.message).onTop
    (built.toList.map Share.exception : List _)
  have hpush : ∀ e : ExceptionRef, ((built.push e).toList.map Share.exception : Multiset Share)
      = {Share.exception e} + (built.toList.map Share.exception : List _) := by
    intro e
    rw [Array.toList_push, List.map_append, ← Multiset.coe_add]
    exact add_comm _ _
  unfold buildLink
  split
  · exact hcreate.cast rfl (hpush _).symm
  · rename_i cause hcause
    obtain ⟨place, _, hplace⟩ := Option.bind_eq_some_iff.mp hcause
    -- The link that this one is raised from was built before and is still in hand.
    have hmem : Share.exception cause ∈ (built.toList.map Share.exception : Multiset Share) := by
      have : cause ∈ built.toList := by
        rw [← Array.getElem?_toList] at hplace
        exact List.mem_of_getElem? hplace
      exact Multiset.mem_coe.mpr (List.mem_map_of_mem this)
    have hretain := Transfer.share_of_mem
      (h := h.withExceptions (ExceptionGraph.create g link.kind link.message).1)
      (Multiset.mem_add.mpr (Or.inr hmem) : _ ∈
        {Share.exception (ExceptionGraph.create g link.kind link.message).2}
          + (built.toList.map Share.exception : Multiset Share))
    have hraise := (ExceptionGraph.raiseFrom_transfer h
      ((ExceptionGraph.create g link.kind link.message).1.retain cause)
      (ExceptionGraph.create g link.kind link.message).2 cause).frame
        (built.toList.map Share.exception : List _)
    refine hcreate.trans (hretain.trans (hraise.cast ?_ ?_))
    · abel
    · exact (hpush _).symm

/-- Until all links are built, each has a share of its own. -/
theorem foldl_buildLink_transfer (h : Holdings) (links : Array OutlineLink)
    (state : ExceptionGraph × Array ExceptionRef) :
    Transfer (h.withExceptions state.1) (state.2.toList.map Share.exception : List _)
      (h.withExceptions (links.foldl buildLink state).1)
      ((links.foldl buildLink state).2.toList.map Share.exception : List _) := by
  rw [← Array.foldl_toList]
  induction links.toList generalizing state with
  | nil => exact Transfer.refl _ _
  | cons link rest ih => exact (buildLink_transfer h state link).trans (ih _)

/-- Building an outline leaves the share of the outermost exception in hand. -/
theorem build_transfer (h : Holdings) (g : ExceptionGraph) (outline : Outline) :
    Transfer (h.withExceptions g) 0 (h.withExceptions (outline.build g).1)
      ((outline.build g).2.toList.map Share.exception : List _) := by
  have hbuilt := foldl_buildLink_transfer h outline.links (g, #[])
  unfold build
  generalize outline.links.foldl buildLink (g, #[]) = state at hbuilt
  obtain ⟨after, built⟩ := state
  have hparts : built.toList = built.pop.toList ++ built.back?.toList := by
    rw [Array.toList_pop, ← Array.getLast?_toList]
    cases hlast : built.toList.getLast? with
    | none => simp [List.getLast?_eq_none_iff.mp hlast]
    | some last => exact (List.dropLast_append_getLast? last hlast).symm
  -- All but the outermost are given up: it holds what it was raised from.
  refine (hbuilt.cast rfl ?_).dropping (Holdings.dropAll_transfer h after built.pop.toList)
  show (built.toList.map Share.exception : Multiset Share) = _
  rw [hparts, List.map_append, ← Multiset.coe_add]
  exact add_comm _ _

end Outline

end Ferry
