import Ferry.Proofs.Ownership.Registries

/-!
# Exclusive ownership

An entry is either dealt directly or owned, and never both.  An owner is made with a handle of its
own, which nobody else gives up: as long as the owner is kept, its entry can only have been given up
by a direct operation.  An entry of an owner that went is gone.

The invariant is `Exclusive`; it says for every handle who answers for it.  It needs histories that
fit into words, since it rests on handles not being issued twice.

Main statements: a run in range keeps ownership exclusive (`Run.exclusive`), and under the invariant
an entry is live exactly if it was dealt directly or is owned, and was not given up directly
(`Exclusive.borrow_iff`).

## Sections

1. The invariant.
2. Changes that leave the registries alone.
3. Storing and giving up.
4. Steps and runs.
5. Which entries are live.
-/

namespace Ferry.Account

/-! ## §1 The invariant -/

/-- An owner that is kept answers for an entry. -/
def Owns (a : Account) (o : OwnerRef) (r : Nat) (handle : Handle) : Prop :=
  a.holdings.owners.content? o = some (.entry r handle)

/-- An entry has someone who keeps it: it was stored directly, or an owner that is kept answers
for it. -/
def Kept (a : Account) (r : Nat) (handle : Handle) : Prop :=
  (r, handle) ∈ a.dealings.deposits ∨ ∃ o, a.Owns o r handle

/-- Every entry has one who answers for it. -/
structure Exclusive (a : Account) : Prop where
  faithful : ∀ r, (a.holdings.registry r).Faithful
  owned_issued : ∀ o r handle, a.Owns o r handle → handle ∈ (a.holdings.registry r).issued
  /-- No two owners answer for one entry. -/
  owned_unique : ∀ o o' r handle, a.Owns o r handle → a.Owns o' r handle → o = o'
  deposit_issued : ∀ r handle, (r, handle) ∈ a.dealings.deposits →
    handle ∈ (a.holdings.registry r).issued
  /-- No owner answers for an entry that was stored directly. -/
  deposit_unowned : ∀ o r handle, (r, handle) ∈ a.dealings.deposits → ¬a.Owns o r handle
  live_kept : ∀ r handle object, (a.holdings.registry r).borrow handle = .ok object →
    a.Kept r handle
  withdrawn_released : ∀ r handle, (r, handle) ∈ a.dealings.withdrawals →
    handle ∈ (a.holdings.registry r).released
  /-- What is given up while someone keeps it is given up directly. -/
  released_withdrawn : ∀ r handle, handle ∈ (a.holdings.registry r).released →
    a.Kept r handle → (r, handle) ∈ a.dealings.withdrawals

/-! ## §2 Changes that leave the registries alone -/

variable {a a' : Account}

/-- Owners may go if their entries are gone. -/
theorem Exclusive.of_registries (ha : a.Exclusive)
    (hregistries : a'.holdings.registries = a.holdings.registries)
    (hdealings : a'.dealings = a.dealings)
    (hsub : ∀ o r handle, a'.Owns o r handle → a.Owns o r handle)
    (hkept : ∀ o r handle object, a.Owns o r handle →
      (a.holdings.registry r).borrow handle = .ok object → a'.Owns o r handle) :
    a'.Exclusive := by
  have hregistry : ∀ r, a'.holdings.registry r = a.holdings.registry r :=
    Holdings.registry_eq hregistries
  have hkept_sub : ∀ r handle, a'.Kept r handle → a.Kept r handle := by
    rintro r handle (hdeposit | ⟨o, howns⟩)
    · exact Or.inl (hdealings ▸ hdeposit)
    · exact Or.inr ⟨o, hsub o r handle howns⟩
  refine
    { faithful := fun r => hregistry r ▸ ha.faithful r
      owned_issued := fun o r handle howns =>
        hregistry r ▸ ha.owned_issued o r handle (hsub o r handle howns)
      owned_unique := fun o o' r handle howns howns' =>
        ha.owned_unique o o' r handle (hsub o r handle howns) (hsub o' r handle howns')
      deposit_issued := fun r handle hdeposit =>
        hregistry r ▸ ha.deposit_issued r handle (hdealings ▸ hdeposit)
      deposit_unowned := fun o r handle hdeposit howns =>
        ha.deposit_unowned o r handle (hdealings ▸ hdeposit) (hsub o r handle howns)
      live_kept := fun r handle object hborrow => ?_
      withdrawn_released := fun r handle hwithdrawn =>
        hregistry r ▸ ha.withdrawn_released r handle (hdealings ▸ hwithdrawn)
      released_withdrawn := fun r handle hreleased hkept' => ?_ }
  -- An owner of a live entry stays.
  · rw [hregistry] at hborrow
    rcases ha.live_kept r handle object hborrow with hdeposit | ⟨o, howns⟩
    · exact Or.inl (hdealings ▸ hdeposit)
    · exact Or.inr ⟨o, hkept o r handle object howns hborrow⟩
  · rw [hregistry] at hreleased
    exact hdealings ▸ ha.released_withdrawn r handle hreleased (hkept_sub r handle hkept')

/-- Changes of items, exceptions, tallies and counts do not matter. -/
theorem Exclusive.of_same (ha : a.Exclusive)
    (hregistries : a'.holdings.registries = a.holdings.registries)
    (hdealings : a'.dealings = a.dealings)
    (howners : ∀ o r handle, a'.Owns o r handle ↔ a.Owns o r handle) : a'.Exclusive :=
  ha.of_registries hregistries hdealings (fun o r handle => (howners o r handle).mp)
    fun o r handle _ howns _ => (howners o r handle).mpr howns

/-- A new owner answers for its own entry, and the others for what they did. -/
theorem owns_newOwner (h : Holdings) (rest hand : Multiset Share) (d d' : Dealings) (duty : Duty)
    (o : OwnerRef) (r : Nat) (handle : Handle) :
    Owns ⟨(h.newOwner duty).1, rest, d⟩ o r handle ↔
      (o = (h.newOwner duty).2 ∧ duty = .entry r handle) ∨ Owns ⟨h, hand, d'⟩ o r handle := by
  show ((h.owners.insert duty).1.content? o = _) ↔ (o = (h.owners.insert duty).2 ∧ _) ∨ _
  rw [Pool.content?_insert]
  split
  · rename_i heq
    subst heq
    simp [Owns, Pool.content?, Pool.cell?_fresh]
  · rename_i hne
    simp [hne, Owns]

/-- A tally answers for no entry. -/
theorem owns_newTally (h : Holdings) (rest hand : Multiset Share) (d d' : Dealings) (counter : Nat)
    (o : OwnerRef) (r : Nat) (handle : Handle) :
    Owns ⟨(h.newOwner (.tally counter)).1, rest, d⟩ o r handle ↔ Owns ⟨h, hand, d'⟩ o r handle := by
  rw [owns_newOwner h rest hand d d']
  simp

/-! ## §3 Storing and giving up -/

section Changes

variable {h : Holdings} {hand rest : Multiset Share} {d : Dealings} {r : Nat} {handle : Handle}
  {object : Object} {x : Registry Object} {index : Nat}

/-- A new entry gets one who keeps it. -/
theorem Exclusive.of_stored (ha : a.Exclusive) (hr : r < a.holdings.registries.size)
    (hstored : Registry.Stored (a.holdings.registry r) object x handle index) (hrange : x.InRange)
    (hregistries : a'.holdings.registries = (a.holdings.setRegistry r x).registries)
    (hwithdrawals : a'.dealings.withdrawals = a.dealings.withdrawals)
    (hdeposits : ∀ r' other, (r', other) ∈ a'.dealings.deposits →
      (r' = r ∧ other = handle) ∨ (r', other) ∈ a.dealings.deposits)
    (howns : ∀ o r' other, a'.Owns o r' other → (r' = r ∧ other = handle) ∨ a.Owns o r' other)
    (hmore : ∀ r' other, a.Kept r' other → a'.Kept r' other) (hkept : a'.Kept r handle)
    (hunique : ∀ o o', a'.Owns o r handle → a'.Owns o' r handle → o = o')
    (hunowned : ∀ o, (r, handle) ∈ a'.dealings.deposits → ¬a'.Owns o r handle) :
    a'.Exclusive := by
  have hfresh := hstored.not_mem_issued hrange (ha.faithful r)
  have hregistry : ∀ r', a'.holdings.registry r' = (a.holdings.setRegistry r x).registry r' :=
    Holdings.registry_eq hregistries
  have hissued : ∀ r' other, other ∈ (a'.holdings.registry r').issued ↔
      (r' = r ∧ other = handle) ∨ other ∈ (a.holdings.registry r').issued := by
    intro r' other
    rw [hregistry]
    exact Holdings.issued_stored hr hstored r' other
  have hreleased : ∀ r', (a'.holdings.registry r').released = (a.holdings.registry r').released :=
    fun r' => (congrArg Registry.released (hregistry r')).trans
      (Holdings.released_stored hr hstored r')
  refine
    { faithful := fun r' => ?_
      owned_issued := fun o r' other howner => ?_
      owned_unique := fun o o' r' other howner howner' => ?_
      deposit_issued := fun r' other hdeposit => ?_
      deposit_unowned := fun o r' other hdeposit howner => ?_
      live_kept := fun r' other found hborrow => ?_
      withdrawn_released := fun r' other hwithdrawn => ?_
      released_withdrawn := fun r' other hgone hkept' => ?_ }
  · rw [hregistry]
    exact Holdings.faithful_setRegistry hr (hstored.faithful hrange (ha.faithful r)) ha.faithful r'
  · exact (hissued r' other).mpr ((howns o r' other howner).imp_right (ha.owned_issued o r' other))
  -- Two owners of the new entry are the same; those of older entries were told apart before.
  · rcases howns o r' other howner with ⟨rfl, rfl⟩ | hbefore
    · exact hunique o o' howner howner'
    · rcases howns o' r' other howner' with ⟨rfl, rfl⟩ | hbefore'
      · exact hunique o o' howner howner'
      · exact ha.owned_unique o o' r' other hbefore hbefore'
  · exact (hissued r' other).mpr ((hdeposits r' other hdeposit).imp_right
      (ha.deposit_issued r' other))
  -- What is new is either stored directly or owned.
  · rcases hdeposits r' other hdeposit with ⟨rfl, rfl⟩ | hbefore
    · exact hunowned o hdeposit howner
    · rcases howns o r' other howner with ⟨rfl, rfl⟩ | hbefore'
      · exact hunowned o hdeposit howner
      · exact ha.deposit_unowned o r' other hbefore hbefore'
  · rw [hregistry] at hborrow
    rcases (Holdings.borrow_stored hr hstored hrange.slots_le r' other found).mp hborrow with
      ⟨rfl, rfl, _⟩ | hborrow
    -- The new entry has one who keeps it, and the others lose none of theirs.
    · exact hkept
    · exact hmore r' other (ha.live_kept r' other found hborrow)
  · rw [hreleased]
    exact ha.withdrawn_released r' other (hwithdrawals ▸ hwithdrawn)
  · rw [hreleased] at hgone
    rw [hwithdrawals]
    refine ha.released_withdrawn r' other hgone ?_
    -- The new handle was not issued before, let alone released.
    have hold : ¬(r' = r ∧ other = handle) := by
      rintro ⟨rfl, rfl⟩
      exact hfresh ((ha.faithful r').released_subset hgone)
    rcases hkept' with hdeposit | ⟨o, howner⟩
    · exact Or.inl ((hdeposits r' other hdeposit).resolve_left hold)
    · exact Or.inr ⟨o, (howns o r' other howner).resolve_left hold⟩

/-- An entry is stored directly. -/
theorem exclusive_deposit (ha : Exclusive ⟨h, hand, d⟩) (hr : r < h.registries.size)
    (hstored : Registry.Stored (h.registry r) object x handle index) (hrange : x.InRange) :
    Exclusive ⟨h.setRegistry r x, rest, d.deposit r handle⟩ := by
  -- The handle was never issued, so no owner can answer for it.
  have hfresh := hstored.not_mem_issued hrange (ha.faithful r)
  have hunowned : ∀ o, ¬Owns ⟨h, hand, d⟩ o r handle := fun o howner =>
    hfresh (ha.owned_issued o r handle howner)
  refine ha.of_stored hr hstored hrange rfl rfl (fun r' other hdeposit => ?_)
    (fun _ _ _ howner => Or.inr howner) (fun r' other hkept => ?_) (Or.inl List.mem_cons_self)
    (fun o _ howner _ => absurd howner (hunowned o)) (fun o _ => hunowned o)
  · rcases List.mem_cons.mp hdeposit with heq | hdeposit
    · cases heq
      exact Or.inl ⟨rfl, rfl⟩
    · exact Or.inr hdeposit
  · exact hkept.imp_left (List.mem_cons_of_mem _)

/-- An entry is stored under a new owner. -/
theorem exclusive_mint (ha : Exclusive ⟨h, hand, d⟩) (hr : r < h.registries.size)
    (hstored : Registry.Stored (h.registry r) object x handle index) (hrange : x.InRange) :
    Exclusive ⟨((h.setRegistry r x).newOwner (.entry r handle)).1, rest, d⟩ := by
  have hfresh := hstored.not_mem_issued hrange (ha.faithful r)
  have howns := owns_newOwner (h.setRegistry r x) rest hand d d (.entry r handle)
  -- The handle was never issued, so only the new owner answers for it.
  have hnew : ∀ o, Owns ⟨((h.setRegistry r x).newOwner (.entry r handle)).1, rest, d⟩ o r handle →
      o = ((h.setRegistry r x).newOwner (.entry r handle)).2 := by
    intro o howner
    rcases (howns o r handle).mp howner with ⟨rfl, _⟩ | howner
    · rfl
    · exact absurd (ha.owned_issued o r handle howner) hfresh
  refine ha.of_stored hr hstored hrange rfl rfl (fun _ _ hdeposit => Or.inr hdeposit)
    (fun o r' other howner => ?_) (fun r' other hkept => ?_) ?_
    (fun o o' howner howner' => (hnew o howner).trans (hnew o' howner').symm)
    (fun o hdeposit => absurd (ha.deposit_issued r handle hdeposit) hfresh)
  · rcases (howns o r' other).mp howner with ⟨_, heq⟩ | howner
    · cases heq
      exact Or.inl ⟨rfl, rfl⟩
    · exact Or.inr howner
  · exact hkept.imp_right fun ⟨o, howner⟩ => ⟨o, (howns o r' other).mpr (Or.inr howner)⟩
  · exact Or.inr ⟨_, (howns _ r handle).mpr (Or.inl ⟨rfl, rfl⟩)⟩

/-- An entry is given up directly. -/
theorem exclusive_withdraw (ha : Exclusive ⟨h, hand, d⟩) (hr : r < h.registries.size)
    (hvacated : Registry.Vacated (h.registry r) handle object x) (hrange : x.InRange) :
    Exclusive ⟨h.setRegistry r x, rest, d.withdraw r handle⟩ := by
  have hissued := Holdings.issued_vacated hr hvacated
  refine
    { faithful := Holdings.faithful_setRegistry hr (hvacated.faithful hrange (ha.faithful r))
        ha.faithful
      owned_issued := fun o r' other howns => hissued r' ▸ ha.owned_issued o r' other howns
      owned_unique := ha.owned_unique
      deposit_issued := fun r' other hdeposit => hissued r' ▸ ha.deposit_issued r' other hdeposit
      deposit_unowned := ha.deposit_unowned
      live_kept := fun r' other found hborrow =>
        ha.live_kept r' other found ((Holdings.borrow_vacated hr hvacated r' other found).mp
          hborrow).2
      withdrawn_released := fun r' other hwithdrawn => ?_
      released_withdrawn := fun r' other hreleased hkept => ?_ }
  · rw [Holdings.released_vacated hr hvacated]
    rcases List.mem_cons.mp hwithdrawn with heq | hwithdrawn
    · cases heq
      exact Or.inl ⟨rfl, rfl⟩
    · exact Or.inr (ha.withdrawn_released r' other hwithdrawn)
  · rcases (Holdings.released_vacated hr hvacated r' other).mp hreleased with ⟨rfl, rfl⟩ | hreleased
    · exact List.mem_cons_self
    · exact List.mem_cons_of_mem _ (ha.released_withdrawn r' other hreleased hkept)

/-- An entry is given up with its owner. -/
theorem exclusive_redeem (ha : a.Exclusive) (hr : r < a.holdings.registries.size)
    (hvacated : Registry.Vacated (a.holdings.registry r) handle object x) (hrange : x.InRange)
    (hregistries : a'.holdings.registries = (a.holdings.setRegistry r x).registries)
    (hdealings : a'.dealings = a.dealings) {o : OwnerRef} (howner : a.Owns o r handle)
    (howns : ∀ o' r' other, a'.Owns o' r' other ↔ o' ≠ o ∧ a.Owns o' r' other) :
    a'.Exclusive := by
  have hregistry : ∀ r', a'.holdings.registry r' = (a.holdings.setRegistry r x).registry r' :=
    Holdings.registry_eq hregistries
  have hissued := fun r' => (congrArg Registry.issued (hregistry r')).trans
    (Holdings.issued_vacated hr hvacated r')
  refine
    { faithful := fun r' => ?_
      owned_issued := fun o' r' other howns' =>
        hissued r' ▸ ha.owned_issued o' r' other ((howns o' r' other).mp howns').2
      owned_unique := fun o₁ o₂ r' other h₁ h₂ => ha.owned_unique o₁ o₂ r' other
        ((howns o₁ r' other).mp h₁).2 ((howns o₂ r' other).mp h₂).2
      deposit_issued := fun r' other hdeposit =>
        hissued r' ▸ ha.deposit_issued r' other (hdealings ▸ hdeposit)
      deposit_unowned := fun o' r' other hdeposit howns' =>
        ha.deposit_unowned o' r' other (hdealings ▸ hdeposit) ((howns o' r' other).mp howns').2
      live_kept := fun r' other found hborrow => ?_
      withdrawn_released := fun r' other hwithdrawn => ?_
      released_withdrawn := fun r' other hreleased hkept => ?_ }
  · rw [hregistry]
    exact Holdings.faithful_setRegistry hr (hvacated.faithful hrange (ha.faithful r)) ha.faithful r'
  · rw [hregistry] at hborrow
    obtain ⟨hother, hborrow⟩ := (Holdings.borrow_vacated hr hvacated r' other found).mp hborrow
    rcases ha.live_kept r' other found hborrow with hdeposit | ⟨o', howner'⟩
    · exact Or.inl (hdealings ▸ hdeposit)
    -- The owner that went answered for the entry that went, which is not live.
    · refine Or.inr ⟨o', (howns o' r' other).mpr ⟨?_, howner'⟩⟩
      rintro rfl
      have heq := howner.symm.trans howner'
      cases heq
      exact hother ⟨rfl, rfl⟩
  · rw [hregistry, Holdings.released_vacated hr hvacated]
    exact Or.inr (ha.withdrawn_released r' other (hdealings ▸ hwithdrawn))
  · rw [hregistry] at hreleased
    rw [hdealings]
    rcases (Holdings.released_vacated hr hvacated r' other).mp hreleased with ⟨rfl, rfl⟩ | hreleased
    · -- Nobody else kept the entry.
      rcases hkept with hdeposit | ⟨o', howns'⟩
      · exact absurd howner (ha.deposit_unowned o r' other (hdealings ▸ hdeposit))
      · obtain ⟨hne, howner'⟩ := (howns o' r' other).mp howns'
        exact absurd (ha.owned_unique o' o r' other howner' howner) hne
    · refine ha.released_withdrawn r' other hreleased ?_
      rcases hkept with hdeposit | ⟨o', howns'⟩
      · exact Or.inl (hdealings ▸ hdeposit)
      · exact Or.inr ⟨o', ((howns o' r' other).mp howns').2⟩

end Changes

/-! ## §4 Steps and runs -/

theorem exclusive_letGo {h : Holdings} {rest : Multiset Share} {d : Dealings} {s : Share}
    (hconsistent : Consistent ⟨h, {s} + rest, d⟩) (ha : Exclusive ⟨h, {s} + rest, d⟩)
    (hrange : (h.letGo s).1.InRange) :
    Exclusive ⟨(h.letGo s).1, ((h.letGo s).2 : Multiset Share) + rest, d⟩ := by
  cases s with
  | item _ | exception _ =>
    exact ha.of_same rfl rfl fun _ _ _ => Iff.rfl
  | owner o =>
    have howners : (h.letGo (.owner o)).1.owners = (h.owners.release o).1 :=
      (Holdings.letGo_owner_pools h o).1
    have hsub : ∀ o' r handle, Owns ⟨(h.letGo (.owner o)).1,
        ((h.letGo (.owner o)).2 : Multiset Share) + rest, d⟩ o' r handle →
        Owns ⟨h, {Share.owner o} + rest, d⟩ o' r handle :=
      fun _ _ _ howns => Holdings.owners_letGo_sub h (.owner o) howns
    have hothers : ∀ o', o' ≠ o → (h.letGo (.owner o)).1.owners.content? o'
        = h.owners.content? o' := by
      intro o' hne
      rw [howners, Pool.content?_release_of_ne _ hne]
    rcases Holdings.letGo_owner_cases hconsistent.tidy o with ⟨heq, hdead⟩ |
      ⟨r, handle, x, object, howns, hnone, hr, hvacated, heq⟩
    -- No entry goes: the owner is held by others, or its entry went before.
    · refine ha.of_registries heq rfl hsub fun o' r handle object howns hborrow => ?_
      by_cases hne : o' = o
      · subst hne
        -- An owner of a live entry does not go without it.
        cases hcontent : (h.owners.release o').1.content? o' with
        | none => exact absurd hborrow (hdead r handle howns hcontent object)
        | some duty =>
          have hbefore := (Pool.content?_of_release hcontent).symm.trans howns
          cases hbefore
          unfold Owns
          rw [howners]
          exact hcontent
      · exact (hothers o' hne).trans howns
    · have hx : (h.setRegistry r x).InRange :=
        fun r' => Holdings.registry_eq (h := h.setRegistry r x) heq r' ▸ hrange r'
      -- The owner goes together with its entry.
      refine exclusive_redeem ha hr hvacated (Holdings.inRange_of_setRegistry hr hx) heq rfl howns
        fun o' r' other => ?_
      constructor
      · refine fun howns' => ⟨?_, hsub o' r' other howns'⟩
        rintro rfl
        unfold Owns at howns'
        rw [howners, hnone] at howns'
        cases howns'
      · exact fun ⟨hne, howns'⟩ => (hothers o' hne).trans howns'

theorem Step.exclusive (hstep : Step a a') (hconsistent : a.Consistent) (ha : a.Exclusive)
    (hrange : a'.holdings.InRange) : a'.Exclusive := by
  cases hstep with
  | @share h hand d s _ =>
    refine ha.of_same (Holdings.registries_retain h s) rfl fun o r handle => ?_
    unfold Owns
    rw [Holdings.content?_owners_retain]
  | letGo s => exact exclusive_letGo hconsistent ha hrange
  | @newTally h rest d counter =>
    exact ha.of_same rfl rfl (owns_newTally h _ rest d d counter)
  | newItem _ | newCounter | newNode _ | relink _ _ _ =>
    exact ha.of_same rfl rfl fun _ _ _ => Iff.rfl
  | @mint h rest d r hr object =>
    obtain ⟨index, hstored⟩ := Registry.store_stored (hconsistent.tidy r) object
    exact exclusive_mint ha hr hstored (Holdings.inRange_of_setRegistry hr hrange)
  | @deposit h rest d r hr object =>
    obtain ⟨index, hstored⟩ := Registry.store_stored (hconsistent.tidy r) object
    exact exclusive_deposit ha hr hstored (Holdings.inRange_of_setRegistry hr hrange)
  | @withdraw h rest d r handle x object hfetch =>
    obtain ⟨hr, hvacated⟩ := Holdings.vacated_of_fetch (hconsistent.tidy r) hfetch
    exact exclusive_withdraw ha hr hvacated (Holdings.inRange_of_setRegistry hr hrange)

/-- A run in range keeps ownership exclusive. -/
theorem Run.exclusive (hrun : Run a a') (hconsistent : a.Consistent) (ha : a.Exclusive)
    (hrange : a'.holdings.InRange) : a'.Exclusive := by
  induction hrun with
  | refl => exact ha
  | tail hfirst hlast ih =>
    have hmid := Run.consistent hfirst hconsistent
    exact hlast.exclusive hmid (ih (hlast.inRange hmid hrange)) hrange

/-! ## §5 Which entries are live -/

/-- An entry is live exactly if someone keeps it and it was not given up directly; it holds the
object that was stored under its handle. -/
theorem Exclusive.borrow_iff (ha : a.Exclusive) (r : Nat) (handle : Handle) (object : Object) :
    (a.holdings.registry r).borrow handle = .ok object ↔
      .stored handle object ∈ (a.holdings.registry r).journal ∧ a.Kept r handle ∧
        (r, handle) ∉ a.dealings.withdrawals := by
  constructor
  · intro hborrow
    obtain ⟨hstored, hlive⟩ := ((ha.faithful r).borrow_iff handle object).mp hborrow
    exact ⟨hstored, ha.live_kept r handle object hborrow,
      fun hwithdrawn => hlive (ha.withdrawn_released r handle hwithdrawn)⟩
  · rintro ⟨hstored, hkept, hlive⟩
    refine ((ha.faithful r).borrow_iff handle object).mpr ⟨hstored, fun hreleased => ?_⟩
    exact hlive (ha.released_withdrawn r handle hreleased hkept)

/-- What someone keeps was stored. -/
theorem Exclusive.mem_issued_of_kept (ha : a.Exclusive) {r : Nat} {handle : Handle}
    (hkept : a.Kept r handle) : handle ∈ (a.holdings.registry r).issued := by
  rcases hkept with hdeposit | ⟨o, howns⟩
  · exact ha.deposit_issued r handle hdeposit
  · exact ha.owned_issued o r handle howns

end Ferry.Account
