import Ferry.Exception.Unlinking
import Ferry.Proofs.Exception.Heap
import Ferry.Proofs.Ownership.Confluence
import Ferry.Proofs.Ownership.Exact
import Ferry.Proofs.Ownership.Spared
import Mathlib.Logic.Function.Iterate

/-!
# Letting go of an exception is exact

When the last share of an exception goes, its links are worked off in a loop.  The loop comes to an
end, and it leaves what `ExceptionGraph.drop` leaves: in a heap, the nodes that went are those that
were reached through the share that was given up and through no other, each of them went once, and
the others are as they were.

A node that goes within the loop has no links any more, so the call that cleans it up ends at once.
Two calls at most are in progress at any time, however long the chain.

Main statements: `ends`, that the work comes to an end; `Logged.step` and `Flat.step`, what a step
keeps of the record and of the calls; `heap_after`, that exceptions make a heap whatever was done;
and `unlinks_of_heap`, which takes them together.

## Sections

1. The end of the loop.
2. What went.
3. How calls nest.
4. Heaps that scripts lead to.
5. Letting go in a heap.
-/

namespace Ferry.ExceptionGraph

namespace Unlinking

/-! ## §1 The end of the loop -/

/-- The order in which pending references are given up does not matter. -/
theorem dropAll_perm (g : ExceptionGraph) {pending other : List ExceptionRef}
    (hperm : pending.Perm other) : dropAll g pending = dropAll g other :=
  Process.run_perm dropping_commutes rfl hperm

/-- A call that cleans up a node without links ends in two steps. -/
theorem step_step_begun {s : Unlinking} {node : Node} {outer : List Activation}
    (hcalls : s.calls = .begun node :: outer) (hbare : node.links = []) :
    s.step.step = { s with calls := outer } := by
  have hfirst : s.step = { s with calls := .ending [] :: outer } := by
    simp only [step, hcalls, hbare, if_true]
  rw [hfirst]
  rfl

/-- A loop works off all that is pending. -/
theorem unlinking_ends (g : ExceptionGraph) (node : Node) (pending : List ExceptionRef)
    (outer : List Activation) (gone : List ExceptionRef) :
    ∃ n more, step^[n] ⟨g, .unlinking node pending :: outer, gone⟩
      = ⟨dropAll g pending, .unlinking node [] :: outer, more⟩ := by
  -- The induction is on what is left to do: links that are in the heap, and references pending.
  generalize hwork : g.weight Node.linkCount + pending.length = work
  induction work using Nat.strongRecOn generalizing g pending gone with
  | ind work ih =>
    cases pending with
    | nil => exact ⟨0, gone, by rw [dropAll_nil, Function.iterate_zero, id]⟩
    | cons e rest =>
      have hweight := Pool.weight_release Node.linkCount g e
      rw [List.length_cons] at hwork
      cases hreleased : (g.release e).2 with
      | none =>
        rw [hreleased, Option.map_none, Option.getD_none] at hweight
        obtain ⟨n, more, hend⟩ := ih _ (by omega) (g.release e).1 rest gone rfl
        refine ⟨n + 1, more, ?_⟩
        have hstep : step ⟨g, .unlinking node (e :: rest) :: outer, gone⟩
            = ⟨(g.release e).1, .unlinking node rest :: outer, gone⟩ :=
          workOff_of_shared node rest outer hreleased
        rw [Function.iterate_succ_apply, hstep, hend, dropAll_cons, hreleased]
        rfl
      | some found =>
        rw [hreleased, Option.map_some, Option.getD_some] at hweight
        have hlinks : found.links.reverse.length = found.linkCount := List.length_reverse
        obtain ⟨n, more, hend⟩ := ih _ (by rw [List.length_append]; omega) (g.release e).1
          (found.links.reverse ++ rest) (e :: gone) rfl
        refine ⟨n + 3, more, ?_⟩
        have hstep : step ⟨g, .unlinking node (e :: rest) :: outer, gone⟩
            = ⟨(g.release e).1, .begun found.stripped
                :: .unlinking node (found.links.reverse ++ rest) :: outer, e :: gone⟩ :=
          workOff_of_last node rest outer hreleased
        rw [Function.iterate_add_apply, show step^[3] _ = step (step (step _)) from rfl, hstep,
          step_step_begun rfl found.links_stripped, hend, dropAll_cons, hreleased]
        rw [dropAll_perm _ ((List.reverse_perm found.links).append_right rest)]
        rfl

/-- Letting go comes to an end, and to what `drop` says. -/
theorem ends (g : ExceptionGraph) (e : ExceptionRef) :
    ∃ n gone, step^[n] (start g e) = ⟨drop g e, [], gone⟩ := by
  rw [drop, dropAll_cons, List.append_nil]
  cases hreleased : (g.release e).2 with
  | none =>
    refine ⟨0, [], ?_⟩
    rw [departing, dropAll_nil]
    exact giveUp_of_shared hreleased
  | some node =>
    have hstart : start g e = ⟨(g.release e).1, [.begun node], [e]⟩ := giveUp_of_last hreleased
    rw [hstart]
    by_cases hbare : node.links = []
    · refine ⟨2, [e], ?_⟩
      rw [show step^[2] _ = step (step _) from rfl, step_step_begun rfl hbare, departing, hbare,
        dropAll_nil]
    · obtain ⟨n, more, hend⟩ := unlinking_ends (g.release e).1 node.stripped node.links.reverse
        [] [e]
      refine ⟨2 + n + 1, more, ?_⟩
      have hfirst : step ⟨(g.release e).1, [.begun node], [e]⟩
          = ⟨(g.release e).1, [.unlinking node.stripped node.links.reverse], [e]⟩ := by
        simp only [step, if_neg hbare]
      rw [Function.iterate_succ_apply, hfirst, Function.iterate_add_apply, hend, departing,
        dropAll_perm _ (List.reverse_perm node.links)]
      rfl

/-! ## §2 What went -/

/-- The record says of each node that was there whether it went, and the others are as they were. -/
structure Logged (g graph : ExceptionGraph) (gone : List ExceptionRef) : Prop where
  once : gone.Nodup
  mem_iff : ∀ x, x ∈ gone ↔ (∃ node, g.content? x = some node) ∧ graph.content? x = none
  within : ∀ x node, graph.content? x = some node → g.content? x = some node

variable {g graph : ExceptionGraph} {gone : List ExceptionRef} {e : ExceptionRef}

theorem Logged.refl (g : ExceptionGraph) : Logged g g [] where
  once := List.nodup_nil
  mem_iff x := by
    refine iff_of_false List.not_mem_nil ?_
    rintro ⟨⟨node, hnode⟩, hnone⟩
    rw [hnode] at hnone
    cases hnone
  within _ _ hnode := hnode

/-- A share that is not the last one goes alone. -/
theorem Logged.of_shared (hlogged : Logged g graph gone) (hshared : (graph.release e).2 = none) :
    Logged g (graph.release e).1 gone where
  once := hlogged.once
  mem_iff x := by rw [Pool.content?_release_of_none hshared, hlogged.mem_iff]
  within x node hnode := hlogged.within x node (Pool.content?_of_release hnode)

/-- The last share takes the node with it, which was not gone before. -/
theorem Logged.of_last (hlogged : Logged g graph gone) {node : Node}
    (hlast : (graph.release e).2 = some node) : Logged g (graph.release e).1 (e :: gone) where
  once := by
    refine List.nodup_cons.mpr ⟨fun hmem => ?_, hlogged.once⟩
    have hnone := ((hlogged.mem_iff e).mp hmem).2
    rw [(Pool.release_of_snd hlast).1] at hnone
    cases hnone
  mem_iff x := by
    by_cases hx : x = e
    · subst hx
      obtain ⟨hbefore, hafter⟩ := Pool.release_of_snd hlast
      exact iff_of_true List.mem_cons_self ⟨⟨node, hlogged.within x node hbefore⟩, hafter⟩
    · rw [List.mem_cons, or_iff_right hx, hlogged.mem_iff, Pool.content?_release_of_ne graph hx]
  within x found hfound := hlogged.within x found (Pool.content?_of_release hfound)

theorem Logged.giveUp {s : Unlinking} (hlogged : Logged g s.graph s.gone) (e : ExceptionRef) :
    Logged g (s.giveUp e).graph (s.giveUp e).gone := by
  cases hreleased : (s.graph.release e).2 with
  | none =>
    rw [giveUp_of_shared hreleased]
    exact hlogged.of_shared hreleased
  | some node =>
    rw [giveUp_of_last hreleased]
    exact hlogged.of_last hreleased

theorem Logged.workOff {s : Unlinking} (hlogged : Logged g s.graph s.gone) (node : Node)
    (e : ExceptionRef) (pending : List ExceptionRef) (outer : List Activation) :
    Logged g (s.workOff node e pending outer).graph (s.workOff node e pending outer).gone := by
  cases hreleased : (s.graph.release e).2 with
  | none =>
    rw [workOff_of_shared node pending outer hreleased]
    exact hlogged.of_shared hreleased
  | some found =>
    rw [workOff_of_last node pending outer hreleased]
    exact hlogged.of_last hreleased

/-- One step keeps the record. -/
theorem Logged.step {s : Unlinking} (hlogged : Logged g s.graph s.gone) :
    Logged g s.step.graph s.step.gone := by
  obtain ⟨graph, calls, gone⟩ := s
  cases calls with
  | nil => exact hlogged
  | cons call outer =>
    cases call with
    | begun node =>
      by_cases hbare : node.links = []
      · simpa only [Unlinking.step, if_pos hbare] using hlogged
      · simpa only [Unlinking.step, if_neg hbare] using hlogged
    | unlinking node pending =>
      cases pending with
      | nil => exact hlogged
      | cons e rest =>
        exact Logged.workOff (s := ⟨graph, .unlinking node (e :: rest) :: outer, gone⟩) hlogged
          node e rest outer
    | ending links =>
      cases links with
      | nil => exact hlogged
      | cons e rest => exact Logged.giveUp (s := ⟨graph, .ending rest :: outer, gone⟩) hlogged e

/-- The record is kept to the end. -/
theorem logged_iterate (g : ExceptionGraph) (e : ExceptionRef) (n : Nat) :
    Logged g (step^[n] (start g e)).graph (step^[n] (start g e)).gone := by
  induction n with
  | zero => exact Logged.giveUp (s := { graph := g }) (Logged.refl g) e
  | succ n ih =>
    rw [Function.iterate_succ_apply']
    exact ih.step

/-! ## §3 How calls nest -/

/-- At most one call is in progress within another, and it has no links to give up. -/
inductive Flat : List Activation → Prop where
  | idle : Flat []
  | begun (node : Node) : Flat [.begun node]
  | unlinking {node : Node} (pending : List ExceptionRef) (hbare : node.links = []) :
      Flat [.unlinking node pending]
  | ending : Flat [.ending []]
  | innerBegun {inner node : Node} (pending : List ExceptionRef) (hinner : inner.links = [])
      (hbare : node.links = []) : Flat [.begun inner, .unlinking node pending]
  | innerEnding {node : Node} (pending : List ExceptionRef) (hbare : node.links = []) :
      Flat [.ending [], .unlinking node pending]

/-- One step keeps the calls flat. -/
theorem Flat.step {s : Unlinking} (hflat : Flat s.calls) : Flat s.step.calls := by
  obtain ⟨graph, calls, gone⟩ := s
  cases hflat with
  | idle => exact .idle
  | begun node =>
    by_cases hbare : node.links = []
    · rw [show Unlinking.step ⟨graph, [.begun node], gone⟩ = ⟨graph, [.ending node.links], gone⟩
        from if_pos hbare, hbare]
      exact .ending
    · simp only [Unlinking.step, if_neg hbare]
      exact .unlinking _ node.links_stripped
  | @unlinking node pending hbare =>
    cases pending with
    | nil =>
      simp only [Unlinking.step, hbare]
      exact .ending
    | cons e rest =>
      let s : Unlinking := ⟨graph, [.unlinking node (e :: rest)], gone⟩
      show Flat (s.workOff node e rest []).calls
      cases hreleased : (s.graph.release e).2 with
      | none =>
        rw [workOff_of_shared node rest [] hreleased]
        exact .unlinking rest hbare
      | some found =>
        rw [workOff_of_last node rest [] hreleased]
        exact .innerBegun _ found.links_stripped hbare
  | ending => exact .idle
  | innerBegun pending hinner hbare =>
    simp only [Unlinking.step, hinner, if_true]
    exact .innerEnding pending hbare
  | innerEnding pending hbare => exact .unlinking pending hbare

theorem flat_iterate (g : ExceptionGraph) (e : ExceptionRef) (n : Nat) :
    Flat (step^[n] (start g e)).calls := by
  induction n with
  | zero =>
    let s : Unlinking := { graph := g }
    show Flat (s.giveUp e).calls
    cases hreleased : (s.graph.release e).2 with
    | none =>
      rw [giveUp_of_shared hreleased]
      exact .idle
    | some node =>
      rw [giveUp_of_last hreleased]
      exact .begun node
  | succ n ih =>
    rw [Function.iterate_succ_apply']
    exact ih.step

/-- However long the chain, calls do not nest deeper than two, and the inner one ends at once. -/
structure Shallow (s : Unlinking) : Prop where
  depth_le : s.calls.length ≤ 2
  /-- A node that goes within a loop has no links any more, and two steps later the loop goes on. -/
  bare : ∀ inner node pending outer, s.calls = .begun inner :: .unlinking node pending :: outer →
    inner.links = [] ∧ s.step.step = { s with calls := .unlinking node pending :: outer }

theorem Flat.shallow {s : Unlinking} (hflat : Flat s.calls) : Shallow s where
  depth_le := by
    generalize s.calls = calls at hflat
    cases hflat <;> simp
  bare inner node pending outer hcalls := by
    rw [hcalls] at hflat
    cases hflat with
    | innerBegun _ hinner _ => exact ⟨hinner, step_step_begun hcalls hinner⟩

end Unlinking

end Ferry.ExceptionGraph

/-! ## §4 Heaps that scripts lead to -/

namespace Ferry

open ExceptionGraph

/-- The shares of an exception that exceptions hold are the links to it. -/
theorem Holdings.heldByExceptions_eq_linksTo (h : Holdings) (e : ExceptionRef) :
    h.heldByExceptions (.exception e) = h.exceptions.linksTo e := by
  have hinjective : Function.Injective Share.exception := by
    intro x y heq
    cases heq
    rfl
  have hcount : ∀ node : Node, node.shares.count (.exception e) = node.links.count e :=
    fun node => List.count_map_of_injective node.links Share.exception hinjective e
  simp only [heldByExceptions, linksTo, hcount]

namespace Account

/-- The references to an exception that no exception holds. -/
def outside (a : Account) (e : ExceptionRef) : Nat :=
  a.hand.count (.exception e) + a.holdings.heldByEntries (.exception e)
    + a.holdings.heldByItems (.exception e)

/-- In a consistent account exceptions make a heap. -/
theorem Consistent.heap {a : Account} (ha : a.Consistent)
    (hfounded : Founded a.holdings.exceptions) : Heap a.holdings.exceptions a.outside where
  count_eq e := by
    have hbalance := ha.balance (.exception e)
    rw [Holdings.held, Holdings.heldByExceptions_eq_linksTo] at hbalance
    simp only [Holdings.holders] at hbalance
    unfold outside
    omega
  attended := ha.exceptions_attended
  acyclic := hfounded.acyclic

end Account

namespace Script.Session

/-- Whatever was done in a script, exceptions make a heap. -/
theorem heap_after (identities : List UInt64) (bridges : List Bridge) (commands : List Command) :
    Heap ((start identities bridges).after commands).holdings.exceptions
      (((start identities bridges).after commands).account {}).outside := by
  have hstart := start_consistent identities bridges
  have hscript := after_careful hstart commands
  exact (hscript.consistent hstart).heap (hscript.founded hstart founded_empty)

end Script.Session

/-! ## §5 Letting go in a heap -/

namespace ExceptionGraph

/-- In a heap, giving up a reference from outside is exact. -/
structure Exact (g : ExceptionGraph) (outside : ExceptionRef → Nat) (e : ExceptionRef)
    (gone : List ExceptionRef) : Prop where
  /-- No node goes twice. -/
  once : gone.Nodup
  /-- The nodes that go are those that were reached from here and, once the reference is given up,
  can be reached from outside no more. -/
  mem_iff : ∀ x, x ∈ gone ↔
    g.Reaches e x ∧ ∀ root, 0 < oneLess outside e root → ¬g.Reaches root x
  empty : ∀ x ∈ gone, (drop g e).content? x = none
  untouched : ∀ x, x ∉ gone → (drop g e).content? x = g.content? x
  /-- The references that remain are counted exactly. -/
  heap : Heap (drop g e) (oneLess outside e)

/-- Giving up a reference comes to an end, is exact, and does not nest. -/
structure Unlinks (g : ExceptionGraph) (outside : ExceptionRef → Nat) (e : ExceptionRef) :
    Prop where
  ends : ∃ n gone, Unlinking.step^[n] (Unlinking.start g e) = ⟨drop g e, [], gone⟩ ∧
    Exact g outside e gone
  shallow : ∀ n, Unlinking.Shallow (Unlinking.step^[n] (Unlinking.start g e))

theorem exact_of_logged {g : ExceptionGraph} {outside : ExceptionRef → Nat} {e : ExceptionRef}
    {gone : List ExceptionRef} (hheap : Heap g outside) (hpos : 0 < outside e)
    (hlogged : Unlinking.Logged g (drop g e) gone) : Exact g outside e gone where
  once := hlogged.once
  mem_iff x := (hlogged.mem_iff x).trans (hheap.gone_iff hpos)
  empty x hx := ((hlogged.mem_iff x).mp hx).2
  untouched x hx := by
    cases hafter : (drop g e).content? x with
    | some node => exact (hlogged.within x node hafter).symm
    | none =>
      -- What is empty and did not go was empty before.
      cases hbefore : g.content? x with
      | none => rfl
      | some node => exact absurd ((hlogged.mem_iff x).mpr ⟨⟨node, hbefore⟩, hafter⟩) hx
  heap := hheap.of_drop hpos

/-- However the nodes of a heap are shared, letting go of one from outside is exact. -/
theorem unlinks_of_heap {g : ExceptionGraph} {outside : ExceptionRef → Nat} {e : ExceptionRef}
    (hheap : Heap g outside) (hpos : 0 < outside e) : Unlinks g outside e where
  ends := by
    obtain ⟨n, gone, hend⟩ := Unlinking.ends g e
    have hlogged := Unlinking.logged_iterate g e n
    rw [hend] at hlogged
    exact ⟨n, gone, hend, exact_of_logged hheap hpos hlogged⟩
  shallow n := (Unlinking.flat_iterate g e n).shallow

section

open Script Script.Session

/-- An exception is raised from another, and both are linked to by a third. -/
def braiding : List Command :=
  [.exception (.new "root" .value "r"), .exception (.new "mid" .type "m"),
    .exception (.extend "mid" "mid" { raisedFrom := some "root" } true),
    .exception (.new "top" .type "t"),
    .exception (.extend "top" "top" { cause := some "mid", context := some "root" } true),
    .exception (.drop "mid")]

/-- The exceptions that this leads to. -/
def braided : ExceptionGraph :=
  ((start [] []).after braiding).holdings.exceptions

/-- The third is let go of.  The second goes with it, and the first, given up three times, stays with
one holder. -/
theorem unlinks_of_heap_braided :
    0 < (((start [] []).after braiding).account {}).outside ⟨2⟩ ∧
      Unlinks braided (((start [] []).after braiding).account {}).outside ⟨2⟩ ∧
      (Unlinking.step^[9] (Unlinking.start braided ⟨2⟩)).calls = [] ∧
      (Unlinking.step^[9] (Unlinking.start braided ⟨2⟩)).gone = [⟨1⟩, ⟨2⟩] ∧
      braided.holders ⟨0⟩ = 4 ∧ (drop braided ⟨2⟩).holders ⟨0⟩ = 1 := by
  have hpos : 0 < (((start [] []).after braiding).account {}).outside ⟨2⟩ := by decide +kernel
  exact ⟨hpos, unlinks_of_heap (heap_after [] [] braiding) hpos, by decide +kernel,
    by decide +kernel, by decide +kernel, by decide +kernel⟩

end

end ExceptionGraph

end Ferry
