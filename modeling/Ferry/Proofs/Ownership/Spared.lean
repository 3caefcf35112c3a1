import Ferry.Proofs.Exception.Chains
import Ferry.Proofs.Ownership.Careful

/-!
# What careful runs spare

An exception that is stored or linked to has a holder beside the hand.  A careful step therefore
does not change it, nor anything that it leads to.  What a careful step makes or changes is linked
to by none, so links never run in a circle.

Main statements: `Consistent.closed`, that links lead to what is alive; `CarefulStep.preserved`,
that what is held is preserved as a whole; and `CarefulRun.founded`, that links come to an end.

## Sections

1. Links hold shares.
2. What is held is spared.
3. No circles.
-/

namespace Ferry.Account

open ExceptionGraph

variable {a a' : Account} {e link : ExceptionRef}

/-! ## §1 Links hold shares -/

theorem held_pos_of_links {h : Holdings} (hlink : Links h.exceptions e link) :
    0 < h.held (.exception link) := by
  obtain ⟨node, hnode, hmem⟩ := hlink
  have hle := Pool.le_weight (w := fun node : Node => node.shares.count (.exception link)) hnode
  have hcount : 0 < node.shares.count (.exception link) :=
    List.count_pos_iff.mpr (List.mem_map_of_mem hmem)
  simp only [Holdings.held, Holdings.heldByExceptions]
  omega

/-- What the holdings hold is alive. -/
theorem Consistent.exists_content_of_held (ha : a.Consistent)
    (hheld : 0 < a.holdings.held (.exception e)) :
    ∃ node, a.holdings.exceptions.content? e = some node :=
  Pool.exists_content_of_holders_pos (ha.holders_pos_of_held hheld)

/-- What is in hand is alive. -/
theorem Consistent.exists_content_of_hand (ha : a.Consistent)
    (hhand : Share.exception e ∈ a.hand) :
    ∃ node, a.holdings.exceptions.content? e = some node :=
  Pool.exists_content_of_holders_pos (ha.holders_pos hhand)

theorem Consistent.closed (ha : a.Consistent) : Closed a.holdings.exceptions := by
  intro x y hlink
  exact ha.exists_content_of_held (held_pos_of_links hlink)

/-- What is in hand and has one holder is held by nobody else. -/
theorem Consistent.held_eq_zero (ha : a.Consistent) (hhand : Share.exception e ∈ a.hand)
    (hsole : a.holdings.exceptions.holders e ≤ 1) : a.holdings.held (.exception e) = 0 := by
  have hbalance := ha.balance (.exception e)
  have hcount : 0 < a.hand.count (.exception e) := Multiset.count_pos.mpr hhand
  simp only [Holdings.holders] at hbalance
  omega

/-- What is in hand and has one holder is in hand once. -/
theorem Consistent.notMem_of_sole {h : Holdings} {rest : Multiset Share} {d : Dealings}
    (ha : Consistent ⟨h, {Share.exception e} + rest, d⟩) (hsole : h.exceptions.holders e ≤ 1) :
    Share.exception e ∉ rest := by
  intro hmem
  have hbalance := ha.balance (.exception e)
  have hcount : 0 < rest.count (.exception e) := Multiset.count_pos.mpr hmem
  simp only [Holdings.holders, Multiset.count_add, Multiset.count_singleton_self] at hbalance
  omega

/-! ## §2 What is held is spared -/

/-- A careful step does not change what the holdings hold afterwards. -/
theorem CarefulStep.content_of_held (hstep : CarefulStep a a') (ha' : a'.Consistent)
    (hheld : 0 < a'.holdings.held (.exception e)) :
    ∃ node, a.holdings.exceptions.content? e = some node ∧
      a'.holdings.exceptions.content? e = some node := by
  obtain ⟨node, hnode⟩ := ha'.exists_content_of_held hheld
  rcases hstep.spares e node hnode with hsame | ⟨hhand, hsole⟩
  · exact ⟨node, hsame, hnode⟩
  -- What is new or changed has no holder beside the hand.
  · have hnone := ha'.held_eq_zero hhand hsole
    omega

theorem CarefulStep.preserved (hstep : CarefulStep a a') (ha' : a'.Consistent)
    (hheld : 0 < a'.holdings.held (.exception e)) :
    Preserved a.holdings.exceptions a'.holdings.exceptions e := by
  intro x hx
  induction hx with
  | refl => exact hstep.content_of_held ha' hheld
  | tail _ hlink ih =>
    obtain ⟨node, hnode, hmem⟩ := hlink
    obtain ⟨same, hsame, hlater⟩ := ih
    rw [hnode] at hsame
    cases hsame
    -- The link is still there, so what it leads to is held as well.
    exact hstep.content_of_held ha' (held_pos_of_links ⟨node, hlater, hmem⟩)

/-! ## §3 No circles -/

theorem CarefulStep.founded (hstep : CarefulStep a a') (ha' : a'.Consistent)
    (hfounded : Founded a.holdings.exceptions) : Founded a'.holdings.exceptions := by
  refine hfounded.of_unlinked fun x node hnode => ?_
  refine (hstep.spares x node hnode).imp_right fun ⟨hhand, hsole⟩ y hlink => ?_
  have hnone := ha'.held_eq_zero hhand hsole
  have hpos := held_pos_of_links hlink
  omega

theorem CarefulRun.founded (hrun : CarefulRun a a') (ha : a.Consistent)
    (hfounded : Founded a.holdings.exceptions) : Founded a'.holdings.exceptions := by
  induction hrun with
  | refl => exact hfounded
  | tail hfirst hlast ih =>
    exact hlast.founded ((CarefulRun.trans hfirst hlast.careful).consistent ha) ih

end Ferry.Account
