import Ferry.Proofs.Registry.Table

/-!
# What the journal of a registry tells

A handle is never issued twice, since a slot is never used again under the same nonce.  This holds
as long as nonces do not run out: a nonce is a word, so the slot that was given up `2 ^ 64 - 1`
times would start over.  A registry is *in range* if no slot came to that.

In range, the journal is *faithful* to the table: a handle is bound to an object exactly if the
object was stored under it and it was not given up since, and so the table is the map that the
events come to.

Main statements: storing and giving up keep the journal faithful (`Stored.faithful`,
`Vacated.faithful`), and a handle that storing returns was never issued before
(`Stored.not_mem_issued`).

## Sections

1. Words that suffice.
2. Faithful journals.
3. Storing.
4. Giving up.
-/

namespace Ferry.Registry

variable {α : Type}

/-! ## §1 Words that suffice -/

/-- Slot numbers and nonces fit into words: there are at most as many slots as words, and no slot
was given up so often that its nonces start over. -/
structure InRange (registry : Registry α) : Prop where
  slots_le : registry.slots.size ≤ 2 ^ 64
  releasesAt_lt : ∀ index, registry.releasesAt index < 2 ^ 64 - 1

/-- A registry with a short history is in range. -/
theorem InRange.of_length {registry : Registry α} (hslots : registry.slots.size ≤ 2 ^ 64)
    (hshort : registry.journal.length < 2 ^ 64 - 1) : registry.InRange where
  slots_le := hslots
  releasesAt_lt := by
    intro index
    have hcount : registry.releasesAt index ≤ registry.released.length := List.countP_le_length
    have hfilter : registry.released.length ≤ registry.journal.length :=
      List.length_filterMap_le _ _
    omega

/-- A generation is followed by the next word, and the last word by one. -/
theorem nextGeneration_toNat (generation : UInt64) :
    (nextGeneration generation).toNat
      = if generation.toNat + 1 = 2 ^ 64 then 1 else generation.toNat + 1 := by
  have hlt := generation.toNat_lt
  have hsum : (generation + 1).toNat = (generation.toNat + 1) % 2 ^ 64 := by
    rw [UInt64.toNat_add, UInt64.toNat_one]
  have hzero : generation + 1 = 0 ↔ generation.toNat + 1 = 2 ^ 64 := by
    rw [← UInt64.toNat_inj, hsum, UInt64.toNat_zero]
    omega
  simp only [nextGeneration, hzero]
  split
  · rfl
  · rw [hsum]
    omega

/-- What is later than a registry: it is the same one, with at least its slots and its history. -/
structure Extends (before after : Registry α) : Prop where
  identity_eq : after.identity = before.identity
  size_le : before.slots.size ≤ after.slots.size
  journal_suffix : before.journal <:+ after.journal

theorem Extends.refl (registry : Registry α) : Extends registry registry :=
  ⟨rfl, Nat.le_refl _, List.suffix_refl _⟩

theorem Extends.trans {first second third : Registry α} (hfirst : Extends first second)
    (hsecond : Extends second third) : Extends first third where
  identity_eq := hsecond.identity_eq.trans hfirst.identity_eq
  size_le := hfirst.size_le.trans hsecond.size_le
  journal_suffix := hfirst.journal_suffix.trans hsecond.journal_suffix

/-- What was given up stays in the history. -/
theorem Extends.released_subset {before after : Registry α} (hextends : Extends before after) :
    before.released ⊆ after.released :=
  (hextends.journal_suffix.filterMap Event.released?).sublist.subset

theorem Extends.releasesAt_le {before after : Registry α} (hextends : Extends before after)
    (index : Nat) : before.releasesAt index ≤ after.releasesAt index :=
  (hextends.journal_suffix.filterMap Event.released?).sublist.countP_le

/-- What was in range later was in range before. -/
theorem Extends.inRange {before after : Registry α} (hextends : Extends before after)
    (hrange : after.InRange) : before.InRange where
  slots_le := hextends.size_le.trans hrange.slots_le
  releasesAt_lt index := (hextends.releasesAt_le index).trans_lt (hrange.releasesAt_lt index)

theorem Stored.extends {before after : Registry α} {object : α} {handle : Handle} {index : Nat}
    (hstored : Stored before object after handle index) : Extends before after where
  identity_eq := hstored.identity_eq
  size_le := by
    rw [hstored.size_eq]
    exact le_max_left _ _
  journal_suffix := hstored.journal_eq ▸ List.suffix_cons _ _

theorem Vacated.extends {before after : Registry α} {handle : Handle} {object : α}
    (hvacated : Vacated before handle object after) : Extends before after where
  identity_eq := hvacated.identity_eq
  size_le := hvacated.size_eq.ge
  journal_suffix := hvacated.journal_eq ▸ List.suffix_cons _ _

/-! ## §2 Faithful journals -/

/-- The map from handles to objects that events come to, the latest first. -/
def bindings : List (Event α) → Handle → Option α
  | [] => fun _ => none
  | .stored handle object :: earlier => Function.update (bindings earlier) handle (some object)
  | .released handle :: earlier => Function.update (bindings earlier) handle none

/-- The journal tells what the table holds and what its slots went through. -/
structure Faithful (registry : Registry α) : Prop where
  /-- A generation counts the entries of its slot that were given up. -/
  generation_eq : ∀ index slot, registry.slots[index]? = some slot →
    slot.generation.toNat = 1 + registry.releasesAt index
  /-- A handle that was issued is not ahead of its slot, and behind it if the slot is free. -/
  issued_le : ∀ handle ∈ registry.issued, handle.registry = registry.identity ∧
    ∃ slot, registry.slots[handle.slot.toNat]? = some slot ∧
      handle.nonce.toNat ≤ slot.generation.toNat ∧
      (slot.object = none → handle.nonce.toNat < slot.generation.toNat)
  issued_nodup : registry.issued.Nodup
  released_nodup : registry.released.Nodup
  released_subset : registry.released ⊆ registry.issued
  /-- Bound is what was stored and not given up. -/
  borrow_iff : ∀ handle object, registry.borrow handle = .ok object ↔
    .stored handle object ∈ registry.journal ∧ handle ∉ registry.released
  /-- Bound is what the events come to. -/
  bindings_iff : ∀ handle object, bindings registry.journal handle = some object ↔
    registry.borrow handle = .ok object

theorem faithful_new (identity : UInt64) : (new identity : Registry α).Faithful where
  generation_eq := by simp [new]
  issued_le := by simp [new, issued]
  issued_nodup := List.nodup_nil
  released_nodup := List.nodup_nil
  released_subset := List.Subset.refl _
  borrow_iff := by simp [borrow_eq_ok_iff_slot, new]
  bindings_iff := by simp [borrow_eq_ok_iff_slot, new, bindings]

/-- A handle of a stored object was issued. -/
theorem mem_issued_of_stored {registry : Registry α} {handle : Handle} {object : α}
    (hstored : .stored handle object ∈ registry.journal) : handle ∈ registry.issued :=
  List.mem_filterMap.mpr ⟨_, hstored, rfl⟩

/-- An object was stored under a handle that was issued. -/
theorem exists_stored_of_mem_issued {registry : Registry α} {handle : Handle}
    (hissued : handle ∈ registry.issued) : ∃ object, .stored handle object ∈ registry.journal := by
  obtain ⟨event, hevent, hhandle⟩ := List.mem_filterMap.mp hissued
  cases event with
  | stored other object =>
    cases hhandle
    exact ⟨object, hevent⟩
  | released other => cases hhandle

/-- One object at most was stored under a handle. -/
theorem Faithful.stored_unique {registry : Registry α} (hfaithful : registry.Faithful)
    {handle : Handle} {first second : α} (hfirst : .stored handle first ∈ registry.journal)
    (hsecond : .stored handle second ∈ registry.journal) : first = second := by
  have hnodup := hfaithful.issued_nodup
  unfold issued at hnodup
  generalize registry.journal = journal at *
  induction journal with
  | nil => cases hfirst
  | cons event rest ih =>
    -- The handle of the first event is not issued again by the others.
    have hfresh : ∀ object, event = .stored handle object →
        ∀ other, .stored handle other ∉ rest := by
      rintro object rfl other hother
      rw [List.filterMap_cons] at hnodup
      exact (List.nodup_cons.mp hnodup).1 (List.mem_filterMap.mpr ⟨_, hother, rfl⟩)
    have hrest : (rest.filterMap Event.issued?).Nodup :=
      hnodup.sublist ((List.sublist_cons_self _ _).filterMap _)
    rcases List.mem_cons.mp hfirst with heq | hfirst
    · rcases List.mem_cons.mp hsecond with heq' | hsecond
      · rw [← heq] at heq'
        exact (Event.stored.inj heq').2.symm
      · exact absurd hsecond (hfresh first heq.symm second)
    · rcases List.mem_cons.mp hsecond with heq' | hsecond
      · exact absurd hfirst (hfresh second heq'.symm first)
      · exact ih hfirst hsecond hrest

/-- A borrowed handle was issued. -/
theorem Faithful.mem_issued_of_borrow {registry : Registry α} (hfaithful : registry.Faithful)
    {handle : Handle} {object : α} (hborrow : registry.borrow handle = .ok object) :
    handle ∈ registry.issued :=
  mem_issued_of_stored ((hfaithful.borrow_iff handle object).mp hborrow).1

/-- No entry of a slot that does not exist was given up. -/
theorem Faithful.releasesAt_of_le {registry : Registry α} (hfaithful : registry.Faithful)
    {index : Nat} (hle : registry.slots.size ≤ index) : registry.releasesAt index = 0 := by
  refine List.countP_eq_zero.mpr fun handle hmem hslot => ?_
  obtain ⟨_, slot, hget, _⟩ := hfaithful.issued_le handle (hfaithful.released_subset hmem)
  obtain ⟨hlt, _⟩ := Array.getElem?_eq_some_iff.mp hget
  have : handle.slot.toNat = index := by simpa using hslot
  omega

/-! ## §3 Storing -/

section Storing

variable {before after : Registry α} {object : α} {handle : Handle} {index : Nat}

theorem Stored.issued_eq (hstored : Stored before object after handle index) :
    after.issued = handle :: before.issued := by
  unfold issued
  rw [hstored.journal_eq]
  exact List.filterMap_cons_some rfl

theorem Stored.released_eq (hstored : Stored before object after handle index) :
    after.released = before.released := by
  unfold released
  rw [hstored.journal_eq]
  exact List.filterMap_cons_none rfl

theorem Stored.releasesAt_eq (hstored : Stored before object after handle index) (other : Nat) :
    after.releasesAt other = before.releasesAt other := by
  simp [releasesAt, hstored.released_eq]

/-- While slot numbers fit into words, the slot of a handle is the slot that was filled. -/
theorem Stored.slot_toNat (hstored : Stored before object after handle index)
    (hslots : after.slots.size ≤ 2 ^ 64) : handle.slot.toNat = index := by
  rw [hstored.size_eq] at hslots
  have hlt : index < 2 ^ 64 := by omega
  rw [hstored.handle_slot]
  exact UInt64.toNat_ofNat_of_lt' hlt

/-- A handle that storing returns was never issued before. -/
theorem Stored.not_mem_issued (hstored : Stored before object after handle index)
    (hrange : after.InRange) (hfaithful : before.Faithful) : handle ∉ before.issued := by
  intro hmem
  obtain ⟨_, slot, hslot, _, hvacant⟩ := hfaithful.issued_le handle hmem
  rw [hstored.slot_toNat hrange.slots_le] at hslot
  rcases hstored.vacant with hfree | ⟨hnew, _⟩
  · -- The handles of a free slot are behind its generation.
    rw [hslot] at hfree
    cases hfree
    exact Nat.lt_irrefl _ (hvacant rfl)
  · -- No handle names a slot that is not there.
    obtain ⟨hlt, _⟩ := Array.getElem?_eq_some_iff.mp hslot
    omega

/-- No handle of the slot was bound before. -/
theorem Stored.unoccupied (hstored : Stored before object after handle index) (nonce : UInt64)
    (found : α) : before.slots[index]? ≠ some ⟨nonce, some found⟩ := by
  rcases hstored.vacant with hfree | ⟨hnew, _⟩
  · simp [hfree]
  · simp [← hnew]

/-- The new handle was unbound before. -/
theorem Stored.borrow_before (hstored : Stored before object after handle index)
    (hslots : after.slots.size ≤ 2 ^ 64) (found : α) : before.borrow handle ≠ .ok found := by
  intro hbound
  rw [borrow_eq_ok_iff_slot, hstored.slot_toNat hslots] at hbound
  exact hstored.unoccupied _ _ hbound.2

/-- After storing, the new handle is bound to the object and the others to what they were. -/
theorem Stored.borrow_iff (hstored : Stored before object after handle index)
    (hslots : after.slots.size ≤ 2 ^ 64) (other : Handle) (found : α) :
    after.borrow other = .ok found ↔
      (other = handle ∧ found = object) ∨ before.borrow other = .ok found := by
  have hindex := hstored.slot_toNat hslots
  rw [borrow_eq_ok_iff_slot, borrow_eq_ok_iff_slot, hstored.identity_eq]
  by_cases hslot : other.slot.toNat = index
  · rw [hslot, hstored.filled]
    constructor
    · rintro ⟨hregistry, hfilled⟩
      simp only [Option.some.injEq, Slot.mk.injEq] at hfilled
      refine Or.inl ⟨?_, hfilled.2.symm⟩
      exact Handle.eq_of_toNat_slot (hregistry.trans hstored.handle_registry.symm)
        (hslot.trans hindex.symm) hfilled.1.symm
    · rintro (⟨rfl, rfl⟩ | ⟨_, hfound⟩)
      · exact ⟨hstored.handle_registry, rfl⟩
      -- The slot was vacant, so no handle of it was bound.
      · exact absurd hfound (hstored.unoccupied _ _)
  · have hne : other ≠ handle := fun heq => hslot (heq ▸ hindex)
    simp [hstored.others _ hslot, hne]

theorem Stored.generation_eq (hstored : Stored before object after handle index)
    (hfaithful : before.Faithful) (other : Nat) (slot : Slot α)
    (hslot : after.slots[other]? = some slot) :
    slot.generation.toNat = 1 + after.releasesAt other := by
  rw [hstored.releasesAt_eq]
  by_cases hother : other = index
  · subst hother
    rw [hstored.filled] at hslot
    cases hslot
    -- Filling a free slot keeps its generation, and a new slot has the first.
    rcases hstored.vacant with hfree | ⟨hnew, hone⟩
    · exact hfaithful.generation_eq other ⟨handle.nonce, none⟩ hfree
    · rw [hfaithful.releasesAt_of_le hnew.le, hone]
      rfl
  · rw [hstored.others other hother] at hslot
    exact hfaithful.generation_eq other slot hslot

theorem Stored.issued_le (hstored : Stored before object after handle index)
    (hrange : after.InRange) (hfaithful : before.Faithful) (other : Handle)
    (hmem : other ∈ after.issued) :
    other.registry = after.identity ∧ ∃ slot, after.slots[other.slot.toNat]? = some slot ∧
      other.nonce.toNat ≤ slot.generation.toNat ∧
      (slot.object = none → other.nonce.toNat < slot.generation.toNat) := by
  have hindex := hstored.slot_toNat hrange.slots_le
  rw [hstored.issued_eq, List.mem_cons] at hmem
  rcases hmem with rfl | hmem
  · refine ⟨hstored.handle_registry.trans hstored.identity_eq.symm, _,
      hindex.symm ▸ hstored.filled, Nat.le_refl _, ?_⟩
    simp
  · obtain ⟨hregistry, slot, hslot, hle, hvacant⟩ := hfaithful.issued_le other hmem
    refine ⟨hregistry.trans hstored.identity_eq.symm, ?_⟩
    by_cases hother : other.slot.toNat = index
    · rcases hstored.vacant with hfree | ⟨hnew, _⟩
      · rw [hother, hfree] at hslot
        cases hslot
        exact ⟨⟨handle.nonce, some object⟩, hother.symm ▸ hstored.filled, hle, by simp⟩
      · obtain ⟨hlt, _⟩ := Array.getElem?_eq_some_iff.mp hslot
        omega
    · exact ⟨slot, (hstored.others _ hother).trans hslot, hle, hvacant⟩

/-- Bound stays what was stored and not given up. -/
theorem Stored.borrow_iff_journal (hstored : Stored before object after handle index)
    (hrange : after.InRange) (hfaithful : before.Faithful) (other : Handle) (found : α) :
    after.borrow other = .ok found ↔
      .stored other found ∈ after.journal ∧ other ∉ after.released := by
  rw [hstored.borrow_iff hrange.slots_le, hstored.journal_eq, hstored.released_eq,
    hfaithful.borrow_iff, List.mem_cons, Event.stored.injEq]
  constructor
  · rintro (⟨rfl, rfl⟩ | ⟨hbefore, hlive⟩)
    · -- A handle that was never issued was never given up.
      have hfresh := hstored.not_mem_issued hrange hfaithful
      exact ⟨Or.inl ⟨rfl, rfl⟩, fun hmem => hfresh (hfaithful.released_subset hmem)⟩
    · exact ⟨Or.inr hbefore, hlive⟩
  · rintro ⟨hsame | hbefore, hlive⟩
    · exact Or.inl hsame
    · exact Or.inr ⟨hbefore, hlive⟩

theorem Stored.bindings_iff (hstored : Stored before object after handle index)
    (hrange : after.InRange) (hfaithful : before.Faithful) (other : Handle) (found : α) :
    bindings after.journal other = some found ↔ after.borrow other = .ok found := by
  rw [hstored.journal_eq, hstored.borrow_iff hrange.slots_le, ← hfaithful.bindings_iff, bindings]
  by_cases hother : other = handle
  · -- The new handle was unbound before.
    have hfresh := hstored.not_mem_issued hrange hfaithful
    have hunbound : bindings before.journal handle ≠ some found := fun hbound =>
      hfresh (hfaithful.mem_issued_of_borrow ((hfaithful.bindings_iff _ _).mp hbound))
    subst hother
    simp [hunbound, eq_comm]
  · simp [hother]

theorem Stored.faithful (hstored : Stored before object after handle index)
    (hrange : after.InRange) (hfaithful : before.Faithful) : after.Faithful where
  generation_eq := hstored.generation_eq hfaithful
  issued_le := hstored.issued_le hrange hfaithful
  issued_nodup := by
    rw [hstored.issued_eq]
    exact List.nodup_cons.mpr ⟨hstored.not_mem_issued hrange hfaithful, hfaithful.issued_nodup⟩
  released_nodup := hstored.released_eq ▸ hfaithful.released_nodup
  released_subset := by
    rw [hstored.issued_eq, hstored.released_eq]
    exact fun _ hmem => List.mem_cons_of_mem _ (hfaithful.released_subset hmem)
  borrow_iff := hstored.borrow_iff_journal hrange hfaithful
  bindings_iff := hstored.bindings_iff hrange hfaithful

end Storing

/-! ## §4 Giving up -/

section GivingUp

variable {before after : Registry α} {object : α} {handle : Handle}

theorem Vacated.issued_eq (hvacated : Vacated before handle object after) :
    after.issued = before.issued := by
  unfold issued
  rw [hvacated.journal_eq]
  exact List.filterMap_cons_none rfl

theorem Vacated.released_eq (hvacated : Vacated before handle object after) :
    after.released = handle :: before.released := by
  unfold released
  rw [hvacated.journal_eq]
  exact List.filterMap_cons_some rfl

theorem Vacated.releasesAt_eq (hvacated : Vacated before handle object after) (index : Nat) :
    after.releasesAt index
      = before.releasesAt index + if handle.slot.toNat = index then 1 else 0 := by
  simp [releasesAt, hvacated.released_eq, List.countP_cons]

theorem Vacated.borrow_before (hvacated : Vacated before handle object after) :
    before.borrow handle = .ok object :=
  (borrow_eq_ok_iff_slot _ _ _).mpr ⟨hvacated.handle_registry, hvacated.occupied⟩

/-- After giving up, the handle is unbound and the others are bound to what they were. -/
theorem Vacated.borrow_iff (hvacated : Vacated before handle object after) (other : Handle)
    (found : α) :
    after.borrow other = .ok found ↔ other ≠ handle ∧ before.borrow other = .ok found := by
  rw [borrow_eq_ok_iff_slot, borrow_eq_ok_iff_slot, hvacated.identity_eq]
  by_cases hslot : other.slot.toNat = handle.slot.toNat
  · rw [hslot, hvacated.emptied, hvacated.occupied]
    constructor
    · rintro ⟨_, hempty⟩
      simp at hempty
    · rintro ⟨hne, hregistry, hfound⟩
      -- Two bound handles of one slot are the same.
      refine absurd ?_ hne
      simp only [Option.some.injEq, Slot.mk.injEq] at hfound
      exact Handle.eq_of_toNat_slot (hregistry.trans hvacated.handle_registry.symm) hslot
        hfound.1.symm
  · have hne : other ≠ handle := fun heq => hslot (heq ▸ rfl)
    simp [hvacated.others _ hslot, hne]

/-- In range, giving up advances the generation by one. -/
theorem Vacated.toNat_nextGeneration (hvacated : Vacated before handle object after)
    (hrange : after.InRange) (hfaithful : before.Faithful) :
    (nextGeneration handle.nonce).toNat = handle.nonce.toNat + 1 := by
  have hcount := hrange.releasesAt_lt handle.slot.toNat
  have hgeneration := hfaithful.generation_eq _ _ hvacated.occupied
  rw [hvacated.releasesAt_eq, if_pos rfl] at hcount
  simp only at hgeneration
  rw [nextGeneration_toNat, if_neg]
  omega

theorem Vacated.generation_eq (hvacated : Vacated before handle object after)
    (hrange : after.InRange) (hfaithful : before.Faithful) (index : Nat) (slot : Slot α)
    (hslot : after.slots[index]? = some slot) :
    slot.generation.toNat = 1 + after.releasesAt index := by
  rw [hvacated.releasesAt_eq]
  by_cases hindex : handle.slot.toNat = index
  · subst hindex
    rw [hvacated.emptied, Option.some.injEq] at hslot
    subst hslot
    have hnext := hvacated.toNat_nextGeneration hrange hfaithful
    have hgeneration := hfaithful.generation_eq _ _ hvacated.occupied
    simp only at hgeneration
    simp only [if_true, hnext, hgeneration]
    omega
  · rw [hvacated.others index (Ne.symm hindex)] at hslot
    rw [if_neg hindex]
    exact hfaithful.generation_eq index slot hslot

theorem Vacated.issued_le (hvacated : Vacated before handle object after)
    (hrange : after.InRange) (hfaithful : before.Faithful) (other : Handle)
    (hmem : other ∈ after.issued) :
    other.registry = after.identity ∧ ∃ slot, after.slots[other.slot.toNat]? = some slot ∧
      other.nonce.toNat ≤ slot.generation.toNat ∧
      (slot.object = none → other.nonce.toNat < slot.generation.toNat) := by
  rw [hvacated.issued_eq] at hmem
  obtain ⟨hregistry, slot, hslot, hle, hvacant⟩ := hfaithful.issued_le other hmem
  refine ⟨hregistry.trans hvacated.identity_eq.symm, ?_⟩
  by_cases hother : other.slot.toNat = handle.slot.toNat
  · -- The generation moves past every handle of the slot.
    have hnext := hvacated.toNat_nextGeneration hrange hfaithful
    rw [hother, hvacated.occupied] at hslot
    cases hslot
    simp only at hle
    refine ⟨_, hother.symm ▸ hvacated.emptied, ?_, fun _ => ?_⟩ <;> simp only [hnext] <;> omega
  · exact ⟨slot, (hvacated.others _ hother).trans hslot, hle, hvacant⟩

theorem Vacated.borrow_iff_journal (hvacated : Vacated before handle object after)
    (hfaithful : before.Faithful) (other : Handle) (found : α) :
    after.borrow other = .ok found ↔
      .stored other found ∈ after.journal ∧ other ∉ after.released := by
  rw [hvacated.borrow_iff, hvacated.journal_eq, hvacated.released_eq, hfaithful.borrow_iff,
    List.mem_cons, List.mem_cons, not_or]
  simp only [reduceCtorEq, false_or]
  exact ⟨fun ⟨hne, hstored, hmem⟩ => ⟨hstored, hne, hmem⟩,
    fun ⟨hstored, hne, hmem⟩ => ⟨hne, hstored, hmem⟩⟩

theorem Vacated.bindings_iff (hvacated : Vacated before handle object after)
    (hfaithful : before.Faithful) (other : Handle) (found : α) :
    bindings after.journal other = some found ↔ after.borrow other = .ok found := by
  rw [hvacated.journal_eq, hvacated.borrow_iff, ← hfaithful.bindings_iff, bindings]
  by_cases hother : other = handle
  · subst hother
    simp
  · simp [hother]

theorem Vacated.faithful (hvacated : Vacated before handle object after)
    (hrange : after.InRange) (hfaithful : before.Faithful) : after.Faithful where
  generation_eq := hvacated.generation_eq hrange hfaithful
  issued_le := hvacated.issued_le hrange hfaithful
  issued_nodup := hvacated.issued_eq ▸ hfaithful.issued_nodup
  released_nodup := by
    -- A handle that is given up was bound, so it was not given up before.
    have hlive := ((hfaithful.borrow_iff _ _).mp hvacated.borrow_before).2
    rw [hvacated.released_eq]
    exact List.nodup_cons.mpr ⟨hlive, hfaithful.released_nodup⟩
  released_subset := by
    have hissued := hfaithful.mem_issued_of_borrow hvacated.borrow_before
    rw [hvacated.issued_eq, hvacated.released_eq]
    exact List.cons_subset.mpr ⟨hissued, hfaithful.released_subset⟩
  borrow_iff := hvacated.borrow_iff_journal hfaithful
  bindings_iff := hvacated.bindings_iff hfaithful

end GivingUp

end Ferry.Registry
