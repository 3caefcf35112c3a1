import Ferry.Proofs.Registry.Past

/-!
# An entry that is given up at once

The next object gets the slot on top of the free list or, if none is free, a new one.  When its
entry is given up before anything else is stored, the slot goes back on top: the next object gets
the same slot again.  Nothing else is different, so no handle is answered in another way than
before.  However often this is repeated, the table has one slot more than at the beginning at most,
and only the generation of that one slot advances.

Main statements: `store_vacate_reused`, what storing and giving up comes to; `Reused.trans`, how
such rounds add up; and `Reused.borrow_eq`, that nobody can tell by a handle.

## Sections

1. The slot that comes next.
2. One round.
3. Many rounds.
-/

namespace Ferry.Registry

variable {α : Type} {registry before middle after : Registry α}

/-! ## §1 The slot that comes next -/

/-- The slot that the next object gets: the one on top of the free list, or else a new one. -/
def nextSlot (registry : Registry α) : Nat :=
  registry.free.headD registry.slots.size

/-- The generation that the next entry has. -/
def nextNonce (registry : Registry α) : UInt64 :=
  match registry.slots[registry.nextSlot]? with
  | some slot => slot.generation
  | none => 1

theorem nextSlot_le (htidy : registry.Tidy) : registry.nextSlot ≤ registry.slots.size := by
  unfold nextSlot
  cases hfree : registry.free with
  | nil => exact Nat.le_refl _
  | cons index rest =>
    obtain ⟨slot, hslot, _⟩ := (htidy.mem_free_iff index).mp (by simp [hfree])
    obtain ⟨hlt, _⟩ := Array.getElem?_eq_some_iff.mp hslot
    exact Nat.le_of_lt hlt

/-- If the slot is there, it holds nothing. -/
theorem nextSlot_vacant (htidy : registry.Tidy) {slot : Slot α}
    (hslot : registry.slots[registry.nextSlot]? = some slot) : slot.object = none := by
  cases hfree : registry.free with
  -- A new slot is not in the table yet.
  | nil => simp [nextSlot, hfree] at hslot
  | cons index rest =>
    obtain ⟨vacant, hvacant, hnone⟩ := (htidy.mem_free_iff index).mp (by simp [hfree])
    rw [nextSlot, hfree, List.headD_cons, hvacant] at hslot
    cases hslot
    exact hnone

theorem store_stored_next (htidy : registry.Tidy) (object : α) :
    Stored registry object (registry.store object).1 (registry.store object).2
      registry.nextSlot := by
  unfold nextSlot
  cases hfree : registry.free with
  | nil => exact store_stored_of_full htidy object hfree
  | cons index rest => exact store_stored_of_free htidy object hfree

theorem free_store (registry : Registry α) (object : α) :
    (registry.store object).1.free = registry.free.tail := by
  cases hfree : registry.free with
  | nil => exact free_store_of_full hfree
  | cons index rest => exact free_store_of_free hfree

theorem Stored.nonce_eq {object : α} {handle : Handle}
    (hstored : Stored before object after handle before.nextSlot) :
    handle.nonce = before.nextNonce := by
  unfold nextNonce
  rcases hstored.vacant with hfree | ⟨hnew, hone⟩
  · rw [hfree]
  · rw [← hnew, Array.getElem?_eq_none (Nat.le_refl _)]
    exact hone

/-! ## §2 One round -/

/-- Objects were stored and given up a number of times, each before the next was stored. -/
structure Reused (times : Nat) (before after : Registry α) : Prop where
  identity_eq : after.identity = before.identity
  /-- The slot that was used is on top of the free list, whether it was there before or is new. -/
  free_eq : after.free = before.nextSlot :: before.free.tail
  live_eq : after.live = before.live
  size_eq : after.slots.size = max before.slots.size (before.nextSlot + 1)
  /-- The slot is vacant, and its generation has advanced with every round. -/
  advanced : after.slots[before.nextSlot]?
    = some ⟨nextGeneration^[times] before.nextNonce, none⟩
  others : ∀ other, other ≠ before.nextSlot → after.slots[other]? = before.slots[other]?
  /-- The table stays tidy. -/
  tidy : after.Tidy

/-- The entry that storing makes is live. -/
theorem borrow_store (htidy : registry.Tidy) (hroom : registry.nextSlot < 2 ^ 64) (object : α) :
    (registry.store object).1.borrow (registry.store object).2 = .ok object ∧
      (registry.store object).2.slot.toNat = registry.nextSlot := by
  have hstored := store_stored_next htidy object
  have hslot : (registry.store object).2.slot.toNat = registry.nextSlot := by
    rw [hstored.handle_slot]
    exact UInt64.toNat_ofNat_of_lt' hroom
  refine ⟨(borrow_eq_ok_iff_slot _ _ _).mpr ⟨?_, ?_⟩, hslot⟩
  · rw [hstored.handle_registry, hstored.identity_eq]
  · rw [hslot]
    exact hstored.filled

theorem store_vacate_reused (htidy : registry.Tidy) (hroom : registry.nextSlot < 2 ^ 64)
    (object : α) :
    Reused 1 registry ((registry.store object).1.vacateAt registry.nextSlot) := by
  obtain ⟨hborrow, hslot⟩ := borrow_store htidy hroom object
  have hstored := store_stored_next htidy object
  have hvacated := vacateAt_vacated hstored.tidy hborrow
  -- The slot that is given up is the one that was just filled.
  rw [hslot] at hvacated
  have hlive := hvacated.live_eq hstored.tidy
  have hmore := hstored.live_eq htidy
  refine
    { identity_eq := hvacated.identity_eq.trans hstored.identity_eq
      free_eq := congrArg (registry.nextSlot :: ·) (free_store registry object)
      live_eq := by omega
      size_eq := hvacated.size_eq.trans hstored.size_eq
      advanced := ?_
      others := fun other hother => ?_
      tidy := hvacated.tidy }
  · rw [Function.iterate_one, ← hstored.nonce_eq, ← hvacated.emptied, hslot]
  · exact (hvacated.others other (hslot.symm ▸ hother)).trans (hstored.others other hother)

/-! ## §3 Many rounds -/

variable {times more : Nat}

/-- The next object gets the same slot. -/
theorem Reused.nextSlot_eq (hreused : Reused times before after) :
    after.nextSlot = before.nextSlot := by
  rw [nextSlot, hreused.free_eq, List.headD_cons]

theorem Reused.nextNonce_eq (hreused : Reused times before after) :
    after.nextNonce = nextGeneration^[times] before.nextNonce := by
  rw [nextNonce, hreused.nextSlot_eq, hreused.advanced]

theorem Reused.trans (hfirst : Reused times before middle) (hsecond : Reused more middle after) :
    Reused (more + times) before after where
  identity_eq := hsecond.identity_eq.trans hfirst.identity_eq
  free_eq := by rw [hsecond.free_eq, hfirst.nextSlot_eq, hfirst.free_eq, List.tail_cons]
  live_eq := hsecond.live_eq.trans hfirst.live_eq
  size_eq := by
    have hsize := hfirst.size_eq
    rw [hsecond.size_eq, hfirst.nextSlot_eq]
    omega
  advanced := by
    rw [Function.iterate_add_apply, ← hfirst.nextNonce_eq, ← hsecond.advanced, hfirst.nextSlot_eq]
  others other hother :=
    (hsecond.others other (hfirst.nextSlot_eq.symm ▸ hother)).trans (hfirst.others other hother)
  tidy := hsecond.tidy

theorem Reused.size_le (hreused : Reused times before after) (htidy : before.Tidy) :
    after.slots.size ≤ before.slots.size + 1 := by
  have hsize := hreused.size_eq
  have hle := nextSlot_le htidy
  omega

/-- No handle is answered in another way than before, be it with an object or with a fault: the slot
that was used was vacant, and is vacant again. -/
theorem Reused.borrow_eq (hreused : Reused times before after) (htidy : before.Tidy)
    (handle : Handle) : after.borrow handle = before.borrow handle := by
  have hentry : after.entry? handle = before.entry? handle := by
    unfold entry?
    by_cases hslot : handle.slot.toNat = before.nextSlot
    · rw [hslot, hreused.advanced]
      cases hold : before.slots[before.nextSlot]? with
      | none => exact ite_self _
      | some slot => simp only [nextSlot_vacant htidy hold, ite_self]
    · rw [hreused.others _ hslot]
  rw [borrow, borrow, hreused.identity_eq, hentry]

end Ferry.Registry
