import Ferry.Proofs.Ownership.Account
import Ferry.Proofs.Registry.History

/-!
# The registries of the holdings

Storing and giving up change one registry of the holdings.  This module says what that does to what
is bound, issued and released in all of them, and that every step extends every history.

Main statements: `borrow_stored`, `borrow_vacated` and their counterparts for what was issued and
released; `Step.extends`.

## Sections

1. An entry is stored.
2. An entry is given up.
3. Histories grow.
-/

namespace Ferry

namespace Holdings

/-- The histories of all registries fit into words. -/
def InRange (h : Holdings) : Prop :=
  ∀ r, (h.registry r).InRange

theorem InRange.of_short {h : Holdings}
    (hshort : ∀ registry ∈ h.registries.toList,
      registry.slots.size ≤ 2 ^ 64 ∧ registry.journal.length < 2 ^ 64 - 1) : h.InRange := by
  intro r
  by_cases hr : r < h.registries.size
  · obtain ⟨hslots, hjournal⟩ := hshort (h.registry r) (List.mem_of_getElem? (registry_of_lt hr))
    exact .of_length hslots hjournal
  · rw [registry_of_le (Nat.le_of_not_lt hr)]
    exact .of_length (by simp [Registry.new]) (by simp [Registry.new])

/-- What holds of the exchanged registry and of all that were there holds of all. -/
theorem registry_setRegistry_cases {P : Nat → Registry Object → Prop} {h : Holdings} {r : Nat}
    {x : Registry Object} (hr : r < h.registries.size) (hself : P r x)
    (hothers : ∀ other, other ≠ r → P other (h.registry other)) (other : Nat) :
    P other ((h.setRegistry r x).registry other) := by
  by_cases hother : other = r
  · subst hother
    rw [registry_setRegistry_self hr]
    exact hself
  · rw [registry_setRegistry_of_ne h x hother]
    exact hothers other hother

variable {h : Holdings} {r : Nat} {x : Registry Object} {handle : Handle} {object : Object}

theorem inRange_of_setRegistry (hr : r < h.registries.size)
    (hrange : (h.setRegistry r x).InRange) : x.InRange := by
  have hx := hrange r
  rwa [registry_setRegistry_self hr] at hx

theorem faithful_setRegistry (hr : r < h.registries.size) (hx : x.Faithful)
    (hfaithful : ∀ r, (h.registry r).Faithful) (other : Nat) :
    ((h.setRegistry r x).registry other).Faithful :=
  registry_setRegistry_cases (P := fun _ y => y.Faithful) hr hx (fun _ _ => hfaithful _) other

/-! ## §1 An entry is stored -/

section Storing

variable {index : Nat}

theorem issued_stored (hr : r < h.registries.size)
    (hstored : Registry.Stored (h.registry r) object x handle index) (r' : Nat) (other : Handle) :
    other ∈ ((h.setRegistry r x).registry r').issued ↔
      (r' = r ∧ other = handle) ∨ other ∈ (h.registry r').issued := by
  refine registry_setRegistry_cases (P := fun r' y => other ∈ y.issued ↔
    (r' = r ∧ other = handle) ∨ other ∈ (h.registry r').issued) hr ?_ (fun r' hne => ?_) r'
  · rw [hstored.issued_eq, List.mem_cons]
    simp
  · simp [hne]

theorem released_stored (hr : r < h.registries.size)
    (hstored : Registry.Stored (h.registry r) object x handle index) (r' : Nat) :
    ((h.setRegistry r x).registry r').released = (h.registry r').released :=
  registry_setRegistry_cases (P := fun r' y => y.released = (h.registry r').released) hr
    hstored.released_eq (fun _ _ => rfl) r'

theorem borrow_stored (hr : r < h.registries.size)
    (hstored : Registry.Stored (h.registry r) object x handle index)
    (hslots : x.slots.size ≤ 2 ^ 64) (r' : Nat) (other : Handle) (found : Object) :
    ((h.setRegistry r x).registry r').borrow other = .ok found ↔
      (r' = r ∧ other = handle ∧ found = object) ∨ (h.registry r').borrow other = .ok found := by
  refine registry_setRegistry_cases (P := fun r' y => y.borrow other = .ok found ↔
    (r' = r ∧ other = handle ∧ found = object) ∨ (h.registry r').borrow other = .ok found) hr ?_
    (fun r' hne => ?_) r'
  · rw [hstored.borrow_iff hslots]
    simp
  · simp [hne]

end Storing

/-! ## §2 An entry is given up -/

theorem issued_vacated (hr : r < h.registries.size)
    (hvacated : Registry.Vacated (h.registry r) handle object x) (r' : Nat) :
    ((h.setRegistry r x).registry r').issued = (h.registry r').issued :=
  registry_setRegistry_cases (P := fun r' y => y.issued = (h.registry r').issued) hr
    hvacated.issued_eq (fun _ _ => rfl) r'

theorem released_vacated (hr : r < h.registries.size)
    (hvacated : Registry.Vacated (h.registry r) handle object x) (r' : Nat) (other : Handle) :
    other ∈ ((h.setRegistry r x).registry r').released ↔
      (r' = r ∧ other = handle) ∨ other ∈ (h.registry r').released := by
  refine registry_setRegistry_cases (P := fun r' y => other ∈ y.released ↔
    (r' = r ∧ other = handle) ∨ other ∈ (h.registry r').released) hr ?_ (fun r' hne => ?_) r'
  · rw [hvacated.released_eq, List.mem_cons]
    simp
  · simp [hne]

theorem borrow_vacated (hr : r < h.registries.size)
    (hvacated : Registry.Vacated (h.registry r) handle object x) (r' : Nat) (other : Handle)
    (found : Object) :
    ((h.setRegistry r x).registry r').borrow other = .ok found ↔
      ¬(r' = r ∧ other = handle) ∧ (h.registry r').borrow other = .ok found := by
  refine registry_setRegistry_cases (P := fun r' y => y.borrow other = .ok found ↔
    ¬(r' = r ∧ other = handle) ∧ (h.registry r').borrow other = .ok found) hr ?_
    (fun r' hne => ?_) r'
  · rw [hvacated.borrow_iff]
    simp
  · simp [hne]

/-! ## §3 Histories grow -/

theorem extends_setRegistry (hr : r < h.registries.size)
    (hx : Registry.Extends (h.registry r) x) (r' : Nat) :
    Registry.Extends (h.registry r') ((h.setRegistry r x).registry r') :=
  registry_setRegistry_cases (P := fun r' y => Registry.Extends (h.registry r') y) hr hx
    (fun _ _ => Registry.Extends.refl _) r'

/-- What giving up a share of an owner comes to: the owner remains or goes without an entry, or its
entry is given up with it. -/
theorem letGo_owner_cases (htidy : ∀ r, (h.registry r).Tidy) (o : OwnerRef) :
    ((h.letGo (.owner o)).1.registries = h.registries ∧
      ∀ r handle, h.owners.content? o = some (.entry r handle) →
        (h.owners.release o).1.content? o = none →
        ∀ object, (h.registry r).borrow handle ≠ .ok object) ∨
    ∃ r handle x object, h.owners.content? o = some (.entry r handle) ∧
      (h.owners.release o).1.content? o = none ∧ r < h.registries.size ∧
      Registry.Vacated (h.registry r) handle object x ∧
      (h.letGo (.owner o)).1.registries = (h.setRegistry r x).registries := by
  simp only [letGo, settle]
  cases hgone : (h.owners.release o).2 with
  | none =>
    -- Another holder keeps the owner, which therefore does not go.
    refine Or.inl ⟨rfl, fun r handle howns hnone => ?_⟩
    rw [Pool.content?_release_of_none hgone, howns] at hnone
    cases hnone
  | some duty =>
    obtain ⟨hcontent, hnone⟩ := Pool.release_of_snd hgone
    cases duty with
    | tally counter =>
      -- A tally answers for no entry.
      refine Or.inl ⟨rfl, fun r handle howns => ?_⟩
      rw [hcontent] at howns
      cases howns
    | entry r handle =>
      simp only [discharge]
      rcases hfetch : (registry { h with owners := (h.owners.release o).1 } r).fetch handle with
        fault | ⟨x, object⟩
      -- The entry was given up before its owner went, so fetching it fails.
      · refine Or.inl ⟨rfl, fun r' handle' howns _ object hborrow => ?_⟩
        rw [hcontent] at howns
        cases howns
        have hfound := (Registry.fetch_eq_ok_iff _ _ _ _).mpr ⟨hborrow, rfl⟩
        rw [show (h.registry r).fetch handle = _ from hfetch] at hfound
        cases hfound
      · obtain ⟨hr, hvacated⟩ := vacated_of_fetch (h := h) (htidy r) hfetch
        exact Or.inr ⟨r, handle, x, object, hcontent, hnone, hr, hvacated, rfl⟩

end Holdings

namespace Account

/-- Every step extends the history of every registry. -/
theorem Step.extends {a a' : Account} (hstep : Step a a') (ha : a.Consistent) (r : Nat) :
    Registry.Extends (a.holdings.registry r) (a'.holdings.registry r) := by
  -- Most steps leave all registries alone.
  have hsame : a'.holdings.registries = a.holdings.registries →
      Registry.Extends (a.holdings.registry r) (a'.holdings.registry r) := by
    intro heq
    rw [Holdings.registry_eq heq]
    exact Registry.Extends.refl _
  cases hstep with
  | share s _ => exact hsame (Holdings.registries_retain _ s)
  | @letGo h rest d s =>
    cases s with
    | owner o =>
      rcases Holdings.letGo_owner_cases ha.tidy o with ⟨heq, _⟩ |
        ⟨r', handle, x, object, _, _, hr, hvacated, heq⟩
      · exact hsame heq
      · rw [Holdings.registry_eq (h := h.setRegistry r' x) heq]
        exact Holdings.extends_setRegistry hr hvacated.extends r
    | item _ | exception _ => exact hsame rfl
  | newItem _ | newTally _ | newCounter | newNode _ | relink _ _ _ => exact hsame rfl
  | mint hr object | deposit hr object =>
    obtain ⟨index, hstored⟩ := Registry.store_stored (ha.tidy _) object
    exact Holdings.extends_setRegistry hr hstored.extends r
  | withdraw hfetch =>
    obtain ⟨hr, hvacated⟩ := Holdings.vacated_of_fetch (ha.tidy _) hfetch
    exact Holdings.extends_setRegistry hr hvacated.extends r

theorem Run.extends {a a' : Account} (hrun : Run a a') (ha : a.Consistent) (r : Nat) :
    Registry.Extends (a.holdings.registry r) (a'.holdings.registry r) := by
  induction hrun with
  | refl => exact Registry.Extends.refl _
  | tail hfirst hlast ih => exact ih.trans (hlast.extends (Run.consistent hfirst ha) r)

theorem Step.inRange {a a' : Account} (hstep : Step a a') (ha : a.Consistent)
    (hrange : a'.holdings.InRange) : a.holdings.InRange :=
  fun r => (hstep.extends ha r).inRange (hrange r)

theorem Run.inRange {a a' : Account} (hrun : Run a a') (ha : a.Consistent)
    (hrange : a'.holdings.InRange) : a.holdings.InRange :=
  fun r => (hrun.extends ha r).inRange (hrange r)

end Account

end Ferry
