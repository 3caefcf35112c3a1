import Ferry.Proofs.Ownership.Exclusive
import Ferry.Proofs.Ownership.Spared

/-!
# As long as an owner is kept

An owner keeps its duty.  As long as it is kept, and nobody gives its entry up directly, the entry
stays live and what it holds stays as it is.  When the owner goes, its entry is gone.

Main statements: `Run.owns_or_released`, that an entry does not outlive its owner; and
`CarefulRun.tenure`, that entry and exception last as long as the owner.

## Sections

1. What only grows.
2. Owners that go.
3. Owners that are kept.
-/

namespace Ferry.Account

variable {a a' : Account} {o : OwnerRef} {r : Nat} {handle : Handle}

/-! ## §1 What only grows -/

/-- No step changes the duty of an owner. -/
theorem Step.owners_grow (hstep : Step a a') : a.holdings.owners.Grows a'.holdings.owners := by
  cases hstep with
  | share s _ =>
    cases s with
    | owner ref => exact Pool.grows_retain _ ref
    | item _ | exception _ => exact Pool.Grows.refl _
  | @letGo h rest d s =>
    cases s with
    | owner ref =>
      have howners : (h.letGo (.owner ref)).1.owners = (h.owners.release ref).1 :=
        (Holdings.letGo_owner_pools h ref).1
      rw [howners]
      exact Pool.grows_release h.owners ref
    | item _ | exception _ => exact Pool.Grows.refl _
  | newTally counter => exact Pool.grows_insert _ _
  | mint _ object => exact Pool.grows_insert _ _
  | newItem _ | newCounter | newNode _ | relink _ _ _ | deposit _ _ | withdraw _ =>
    exact Pool.Grows.refl _

theorem Run.owners_grow (hrun : Run a a') : a.holdings.owners.Grows a'.holdings.owners :=
  hrun.preserves (P := fun x => a.holdings.owners.Grows x.holdings.owners)
    (fun _ _ hstep hgrows => hgrows.trans hstep.owners_grow) (Pool.Grows.refl _)

/-- What was given up directly stays noted. -/
theorem Step.withdrawals_subset (hstep : Step a a') :
    a.dealings.withdrawals ⊆ a'.dealings.withdrawals := by
  cases hstep with
  | withdraw _ => exact List.subset_cons_self _ _
  | share _ _ | letGo _ | newItem _ | newTally _ | newCounter | newNode _ | relink _ _ _
  | mint _ _ | deposit _ _ => exact List.Subset.refl _

/-! ## §2 Owners that go -/

theorem owns_or_released_letGo {h : Holdings} {rest : Multiset Share} {d : Dealings} {o' : OwnerRef}
    (ha : Consistent ⟨h, {Share.owner o'} + rest, d⟩)
    (hexclusive : Exclusive ⟨h, {Share.owner o'} + rest, d⟩)
    (howns : h.owners.content? o = some (.entry r handle)) :
    (h.letGo (.owner o')).1.owners.content? o = some (.entry r handle) ∨
      handle ∈ ((h.letGo (.owner o')).1.registry r).released := by
  rw [(Holdings.letGo_owner_pools h o').1]
  by_cases hsame : o = o'
  · subst hsame
    rcases Holdings.letGo_owner_cases ha.tidy o with ⟨heq, hdead⟩ |
      ⟨r', other, x, object, hother, _, hr, hvacated, heq⟩
    · cases hcontent : (h.owners.release o).1.content? o with
      | some duty =>
        have hbefore := Pool.content?_of_release hcontent
        rw [← hbefore]
        exact Or.inl howns
      -- The owner goes without an entry, which therefore went before.
      | none =>
        obtain ⟨object, hstored⟩ := Registry.exists_stored_of_mem_issued
          (hexclusive.owned_issued o r handle howns)
        refine Or.inr ?_
        rw [Holdings.registry_eq heq]
        by_contra hlive
        exact hdead r handle howns hcontent object
          (((hexclusive.faithful r).borrow_iff handle object).mpr ⟨hstored, hlive⟩)
    · have hduty := hother.symm.trans howns
      cases hduty
      refine Or.inr ?_
      rw [Holdings.registry_eq (h := h.setRegistry r x) heq]
      exact (Holdings.released_vacated hr hvacated r handle).mpr (Or.inl ⟨rfl, rfl⟩)
  · rw [Pool.content?_release_of_ne h.owners hsame]
    exact Or.inl howns

/-- An owner stays, or its entry is given up. -/
theorem Step.owns_or_released (hstep : Step a a') (ha : a.Consistent) (hexclusive : a.Exclusive)
    (howns : a.Owns o r handle) :
    a'.Owns o r handle ∨ handle ∈ (a'.holdings.registry r).released := by
  cases hstep with
  | @share h rest d s _ =>
    unfold Owns
    rw [Holdings.content?_owners_retain]
    exact Or.inl howns
  | @newTally h rest d counter =>
    exact Or.inl ((owns_newTally h _ rest d d counter o r handle).mpr howns)
  | @mint h rest d r' _ object =>
    exact Or.inl ((owns_newOwner (h.store r' object).1 _ rest d d _ o r handle).mpr
      (Or.inr howns))
  | newItem _ | newCounter | newNode _ | relink _ _ _ | deposit _ _ | withdraw _ =>
    exact Or.inl howns
  | letGo s =>
    cases s with
    | item _ | exception _ => exact Or.inl howns
    | owner o' => exact owns_or_released_letGo ha hexclusive howns

theorem Run.owns_or_released (hrun : Run a a') (ha : a.Consistent) (hexclusive : a.Exclusive)
    (hrange : a'.holdings.InRange) (howns : a.Owns o r handle) :
    a'.Owns o r handle ∨ handle ∈ (a'.holdings.registry r).released := by
  induction hrun with
  | refl => exact Or.inl howns
  | @tail b c hfirst hlast ih =>
    have hb : b.Consistent := Run.consistent hfirst ha
    have hbrange := hlast.inRange hb hrange
    rcases ih hbrange with hkept | hreleased
    · exact hlast.owns_or_released hb (Run.exclusive hfirst ha hexclusive hbrange) hkept
    -- What was given up stays in the journal.
    · exact Or.inr ((hlast.extends hb r).released_subset hreleased)

/-! ## §3 Owners that are kept -/

/-- As long as its owner is kept and nobody gives it up directly, an entry stays live, and the
exception in it stays as it is with all that it leads to. -/
theorem CarefulRun.tenure {e : ExceptionRef} (hrun : CarefulRun a a') (ha : a.Consistent)
    (hexclusive : a.Exclusive) (howns : a.Owns o r handle)
    (hborrow : (a.holdings.registry r).borrow handle = .ok (.exception e))
    (hrange : a'.holdings.InRange) {duty : Duty}
    (hkept : a'.holdings.owners.content? o = some duty)
    (hlive : (r, handle) ∉ a'.dealings.withdrawals) :
    a'.Owns o r handle ∧ (a'.holdings.registry r).borrow handle = .ok (.exception e) ∧
      a.holdings.exceptions.Preserved a'.holdings.exceptions e := by
  have hplace := Pool.index_lt_of_content howns
  induction hrun generalizing duty with
  | refl =>
    obtain ⟨node, hnode⟩ := ha.exists_content_of_held (Holdings.held_pos_of_borrow hborrow)
    exact ⟨howns, hborrow,
      ExceptionGraph.preserved_of_grows (Pool.Grows.refl _) ha.closed ha.closed hnode hnode⟩
  | @tail b c hfirst hlast ih =>
    have hrun : CarefulRun a c := CarefulRun.trans hfirst hlast.careful
    have hb : b.Consistent := CarefulRun.consistent hfirst ha
    have hc : c.Consistent := hrun.consistent ha
    -- An owner that is kept now was kept before, with the same duty.
    have hbplace := hplace.trans_le (CarefulRun.run hfirst).owners_grow.size_le
    have hbkept := hlast.step.owners_grow.content o duty hbplace hkept
    obtain ⟨hbowns, hbborrow, hpreserved⟩ := ih (hlast.step.inRange hb hrange) hbkept
      fun hmem => hlive (hlast.step.withdrawals_subset hmem)
    have hcowns : c.Owns o r handle := by
      unfold Owns at hbowns ⊢
      rw [hkept, ← hbkept, hbowns]
    -- So its entry is live, since it was stored and not given up.
    have hbexclusive := (CarefulRun.run hfirst).exclusive ha hexclusive
      (hlast.step.inRange hb hrange)
    obtain ⟨hstored, _⟩ := (hbexclusive.borrow_iff r handle _).mp hbborrow
    have hjournal := (hlast.step.extends hb r).journal_suffix.subset hstored
    have hcborrow := ((hrun.run.exclusive ha hexclusive hrange).borrow_iff r handle _).mpr
      ⟨hjournal, Or.inr ⟨o, hcowns⟩, hlive⟩
    exact ⟨hcowns, hcborrow,
      hpreserved.trans (hlast.preserved hc (Holdings.held_pos_of_borrow hcborrow))⟩

end Ferry.Account
