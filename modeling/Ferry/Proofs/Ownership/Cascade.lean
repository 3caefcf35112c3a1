import Ferry.Proofs.Ownership.Registries
import Mathlib.Logic.Function.Iterate

/-!
# Cascades

Giving up shares goes step by step along a work list, and what a step sets free is put in front of
the others.  A cascade comes to an end, whatever holds what, and gives up an entry once at most.

What a cascade does to a registry is stated as `GivesUp`: some entries that were live are given up,
each of them once, and nothing else is changed.  What it does to all of them together is stated as
`Frees`: an entry goes with the owner that answers for it.

Main statements: `cascade_ends`, `releaseAll_givesUp` and `releaseAll_frees`.

## Sections

1. The steps of a cascade.
2. What is given up.
3. Entries go with their owners.
-/

namespace Ferry.Holdings

/-! ## §1 The steps of a cascade -/

/-- One step of a cascade: the first of the pending shares is given up. -/
def cascade : Holdings × List Share → Holdings × List Share
  | (h, []) => (h, [])
  | (h, share :: rest) => ((h.settle share).1, (h.settle share).2 ++ rest)

/-- A cascade ends after a number of steps that the items at its start bound. -/
theorem cascade_ends (h : Holdings) (pending : List Share) :
    ∃ n ≤ h.weight + Share.totalWeight pending,
      cascade^[n] (h, pending) = (h.releaseAll pending, []) := by
  induction h, pending using releaseAll.induct with
  | case1 h =>
    rw [releaseAll_nil]
    exact ⟨0, Nat.zero_le _, rfl⟩
  | case2 h share rest settled ih =>
    obtain ⟨n, hn, hend⟩ := ih
    rw [releaseAll_cons]
    refine ⟨n + 1, ?_, ?_⟩
    · -- Every step leaves less to do.
      have hless : settled.1.weight + Share.totalWeight settled.2 < h.weight + share.weight :=
        settle_weight_lt h share
      rw [Share.totalWeight_append] at hn
      rw [Share.totalWeight_cons]
      omega
    · rw [Function.iterate_succ_apply]
      exact hend

/-! ## §2 What is given up -/

/-- Some live entries of a registry are given up, each of them once, and nothing else is changed. -/
structure GivesUp (before after : Registry Object) (gone : List Handle) : Prop where
  identity_eq : after.identity = before.identity
  issued_eq : after.issued = before.issued
  released_eq : after.released = gone ++ before.released
  gone_nodup : gone.Nodup
  gone_live : ∀ handle ∈ gone, ∃ object, before.borrow handle = .ok object
  borrow_iff : ∀ handle object, after.borrow handle = .ok object ↔
    handle ∉ gone ∧ before.borrow handle = .ok object

theorem GivesUp.refl (registry : Registry Object) : GivesUp registry registry [] where
  identity_eq := rfl
  issued_eq := rfl
  released_eq := rfl
  gone_nodup := List.nodup_nil
  gone_live := nofun
  borrow_iff := by simp

theorem GivesUp.trans {first second third : Registry Object} {gone more : List Handle}
    (hfirst : GivesUp first second gone) (hsecond : GivesUp second third more) :
    GivesUp first third (more ++ gone) where
  identity_eq := hsecond.identity_eq.trans hfirst.identity_eq
  issued_eq := hsecond.issued_eq.trans hfirst.issued_eq
  released_eq := by
    rw [hsecond.released_eq, hfirst.released_eq, List.append_assoc]
  gone_nodup := by
    refine List.nodup_append'.mpr ⟨hsecond.gone_nodup, hfirst.gone_nodup, fun handle hmore => ?_⟩
    -- What is given up later is live until then.
    obtain ⟨object, hborrow⟩ := hsecond.gone_live handle hmore
    exact ((hfirst.borrow_iff handle object).mp hborrow).1
  gone_live handle hmem := by
    rcases List.mem_append.mp hmem with hmore | hgone
    · obtain ⟨object, hborrow⟩ := hsecond.gone_live handle hmore
      exact ⟨object, ((hfirst.borrow_iff handle object).mp hborrow).2⟩
    · exact hfirst.gone_live handle hgone
  borrow_iff handle object := by
    rw [hsecond.borrow_iff, hfirst.borrow_iff, List.mem_append, not_or, and_assoc]

theorem givesUp_vacated {before after : Registry Object} {handle : Handle} {object : Object}
    (hvacated : Registry.Vacated before handle object after) : GivesUp before after [handle] where
  identity_eq := hvacated.identity_eq
  issued_eq := hvacated.issued_eq
  released_eq := hvacated.released_eq
  gone_nodup := List.nodup_singleton handle
  gone_live other hmem := by
    cases List.mem_singleton.mp hmem
    exact ⟨object, hvacated.borrow_before⟩
  borrow_iff other found := by
    rw [hvacated.borrow_iff, List.mem_singleton]

/-- Giving up a share leaves a registry alone or gives up one of its entries. -/
theorem settle_registry_cases {h : Holdings} (htidy : ∀ r, (h.registry r).Tidy) (s : Share)
    (r : Nat) : (h.settle s).1.registry r = h.registry r ∨
      ∃ handle object,
        Registry.Vacated (h.registry r) handle object ((h.settle s).1.registry r) := by
  cases s with
  | item _ | exception _ => exact Or.inl rfl
  | owner o =>
    have hletGo : h.settle (.owner o) = h.letGo (.owner o) := rfl
    rw [hletGo]
    -- Only an owner that goes takes an entry with it.
    rcases letGo_owner_cases htidy o with ⟨heq, _⟩ |
      ⟨r', handle, x, object, _, _, hr, hvacated, heq⟩
    · exact Or.inl (registry_eq heq r)
    · rw [registry_eq (h := h.setRegistry r' x) heq]
      exact registry_setRegistry_cases
        (P := fun r y => y = h.registry r ∨
          ∃ handle object, Registry.Vacated (h.registry r) handle object y) hr
        (Or.inr ⟨handle, object, hvacated⟩) (fun _ _ => Or.inl rfl) r

/-- Giving up a share gives up one entry at most. -/
theorem settle_givesUp {h : Holdings} (htidy : ∀ r, (h.registry r).Tidy) (s : Share) (r : Nat) :
    ∃ gone, GivesUp (h.registry r) ((h.settle s).1.registry r) gone := by
  rcases settle_registry_cases htidy s r with heq | ⟨handle, object, hvacated⟩
  · rw [heq]
    exact ⟨[], GivesUp.refl _⟩
  · exact ⟨[handle], givesUp_vacated hvacated⟩

theorem tidy_settle {h : Holdings} (htidy : ∀ r, (h.registry r).Tidy) (s : Share) (r : Nat) :
    ((h.settle s).1.registry r).Tidy := by
  cases s with
  | item _ | exception _ => exact htidy r
  | owner o =>
    exact Account.tidy_discharge (h := { h with owners := (h.owners.release o).1 }) htidy _ r

/-- A cascade gives up some live entries of a registry, each of them once. -/
theorem releaseAll_givesUp {h : Holdings} (htidy : ∀ r, (h.registry r).Tidy)
    (pending : List Share) (r : Nat) :
    ∃ gone, GivesUp (h.registry r) ((h.releaseAll pending).registry r) gone := by
  induction h, pending using releaseAll.induct with
  | case1 h =>
    rw [releaseAll_nil]
    exact ⟨[], GivesUp.refl _⟩
  | case2 h share rest settled ih =>
    rw [releaseAll_cons]
    obtain ⟨gone, hfirst⟩ := settle_givesUp htidy share r
    -- What the rest of the cascade gives up is still live after the first step.
    obtain ⟨more, hrest⟩ := ih (tidy_settle htidy share)
    exact ⟨more ++ gone, hfirst.trans hrest⟩

/-! ## §3 Entries go with their owners -/

/-- Owners went, and of the entries just such that one of these owners answered for. -/
structure Frees (h h' : Holdings) : Prop where
  owners_sub : ∀ o duty, h'.owners.content? o = some duty → h.owners.content? o = some duty
  borrow_sub : ∀ r handle object, (h'.registry r).borrow handle = .ok object →
    (h.registry r).borrow handle = .ok object
  gone_owned : ∀ r handle object, (h.registry r).borrow handle = .ok object →
    (∀ found, (h'.registry r).borrow handle ≠ .ok found) →
    ∃ o, h.owners.content? o = some (.entry r handle) ∧ h'.owners.content? o = none

theorem Frees.trans {h h' h'' : Holdings} (hfirst : Frees h h') (hsecond : Frees h' h'') :
    Frees h h'' where
  owners_sub o duty hduty := hfirst.owners_sub o duty (hsecond.owners_sub o duty hduty)
  borrow_sub r handle object hborrow :=
    hfirst.borrow_sub r handle object (hsecond.borrow_sub r handle object hborrow)
  gone_owned r handle object hborrow hgone := by
    by_cases hmiddle : ∀ found, (h'.registry r).borrow handle ≠ .ok found
    -- The entry went on the first part of the way, or on the second.
    · obtain ⟨o, howns, hnone⟩ := hfirst.gone_owned r handle object hborrow hmiddle
      -- An owner that went does not come back.
      refine ⟨o, howns, Option.eq_none_iff_forall_ne_some.mpr fun duty hduty => ?_⟩
      rw [hsecond.owners_sub o duty hduty] at hnone
      cases hnone
    · obtain ⟨found, hfound⟩ := not_forall_not.mp hmiddle
      obtain ⟨o, howns, hnone⟩ := hsecond.gone_owned r handle found hfound hgone
      exact ⟨o, hfirst.owners_sub o _ howns, hnone⟩

/-- No entry goes while the registries stay as they are. -/
theorem Frees.of_registries {h h' : Holdings} (hregistries : h'.registries = h.registries)
    (howners : ∀ o duty, h'.owners.content? o = some duty → h.owners.content? o = some duty) :
    Frees h h' := by
  have hsame : ∀ r, h'.registry r = h.registry r := registry_eq hregistries
  refine
    { owners_sub := howners
      borrow_sub := fun r handle object hborrow => hsame r ▸ hborrow
      gone_owned := fun r handle object hborrow hgone => ?_ }
  rw [hsame] at hgone
  exact absurd hborrow (hgone object)

theorem settle_frees {h : Holdings} (htidy : ∀ r, (h.registry r).Tidy) (s : Share) :
    Frees h (h.settle s).1 := by
  cases s with
  | item _ | exception _ =>
    exact .of_registries rfl fun _ _ hduty => hduty
  | owner o =>
    have hpool : (h.settle (.owner o)).1.owners = (h.owners.release o).1 :=
      (letGo_owner_pools h o).1
    have howners : ∀ o' duty, (h.settle (.owner o)).1.owners.content? o' = some duty →
        h.owners.content? o' = some duty :=
      fun _ _ hduty => owners_letGo_sub h (.owner o) hduty
    rcases letGo_owner_cases htidy o with ⟨heq, _⟩ |
      ⟨r, handle, x, object, howns, hnone, hr, hvacated, heq⟩
    · exact .of_registries heq howners
    · have hregistry : ∀ r', (h.settle (.owner o)).1.registry r'
          = (h.setRegistry r x).registry r' := registry_eq heq
      refine
        { owners_sub := howners
          borrow_sub := fun r' other found hborrow => ?_
          gone_owned := fun r' other found hborrow hgone => ?_ }
      · rw [hregistry, borrow_vacated hr hvacated] at hborrow
        exact hborrow.2
      · simp only [hregistry] at hgone
        -- Only the entry of the owner went.
        have hentry : r' = r ∧ other = handle := by
          by_contra hne
          exact hgone found ((borrow_vacated hr hvacated r' other found).mpr ⟨hne, hborrow⟩)
        obtain ⟨rfl, rfl⟩ := hentry
        exact ⟨o, howns, hpool ▸ hnone⟩

/-- In a cascade entries go with their owners only. -/
theorem releaseAll_frees {h : Holdings} (htidy : ∀ r, (h.registry r).Tidy)
    (pending : List Share) : Frees h (h.releaseAll pending) := by
  induction h, pending using releaseAll.induct with
  | case1 h =>
    rw [releaseAll_nil]
    exact .of_registries rfl fun _ _ hduty => hduty
  | case2 h share rest settled ih =>
    rw [releaseAll_cons]
    exact (settle_frees htidy share).trans (ih (tidy_settle htidy share))

end Ferry.Holdings
