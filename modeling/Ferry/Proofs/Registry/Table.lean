import Ferry.Registry
import Ferry.Total
import Mathlib.Algebra.Order.Group.Nat
import Mathlib.Data.List.Nodup

/-!
# The slot table of a registry

A slot table keeps one fact in several places: a slot is unoccupied exactly if it is on the free
list, and the live count is the number of the other slots.  The table is *tidy* if these agree, and
every operation keeps it tidy.

What an operation does to the table is said once, as `Stored` and `Vacated`; statements about
registries start from these and do not open the operations.

Main statements: storing into a tidy table is `Stored` (`store_stored`), giving up an entry is
`Vacated` (`vacateAt_vacated`), and both keep the table tidy (`Stored.tidy`, `Vacated.tidy`).

## Sections

1. The weight of a table.
2. Tidy tables.
3. What storing does.
4. What giving up does.
-/

namespace Ferry

variable {α : Type}

namespace Registry

/-! ## §1 The weight of a table -/

/-- The weight of a slot under a weight of objects; an unoccupied slot weighs nothing. -/
def slotWeight (w : α → Nat) (slot : Slot α) : Nat :=
  match slot.object with
  | none => 0
  | some object => w object

/-- The sum of the weights of all stored objects. -/
def weight (w : α → Nat) (registry : Registry α) : Nat :=
  sumOf (slotWeight w) registry.slots.toList

/-- Changing one slot changes the weight by the difference. -/
theorem sum_slotWeight_modify (w : α → Nat) {slots : Array (Slot α)} (f : Slot α → Slot α) {i : Nat}
    {slot : Slot α} (hslot : slots[i]? = some slot) :
    sumOf (slotWeight w) (slots.modify i f).toList + slotWeight w slot
      = sumOf (slotWeight w) slots.toList + slotWeight w (f slot) := by
  have hrow : slots.toList[i]? = some slot := by simpa using hslot
  rw [Array.toList_modify]
  exact sumOf_modify (slotWeight w) slots.toList f hrow

theorem getElem?_modify_of_ne (slots : Array (Slot α)) (f : Slot α → Slot α) {i other : Nat}
    (hne : other ≠ i) : (slots.modify i f)[other]? = slots[other]? := by
  simp [Array.getElem?_modify, Ne.symm hne]

/-- A stored object contributes to the weight. -/
theorem le_weight {w : α → Nat} {registry : Registry α} {i : Nat} {slot : Slot α} {object : α}
    (hslot : registry.slots[i]? = some slot) (hobject : slot.object = some object) :
    w object ≤ registry.weight w := by
  have hmem : slot ∈ registry.slots.toList := by
    have : registry.slots.toList[i]? = some slot := by simpa using hslot
    exact List.mem_of_getElem? this
  have hle : slotWeight w slot ≤ registry.weight w :=
    le_sumOf hmem
  simpa [slotWeight, hobject] using hle

/-- A positive weight comes from a stored object. -/
theorem exists_of_weight_pos {w : α → Nat} {registry : Registry α} (hpos : 0 < registry.weight w) :
    ∃ (i : Nat) (slot : Slot α) (object : α),
      registry.slots[i]? = some slot ∧ slot.object = some object ∧ 0 < w object := by
  obtain ⟨slot, hslot, hslot_pos⟩ := exists_of_sumOf_pos hpos
  obtain ⟨i, hi⟩ := List.mem_iff_getElem?.mp hslot
  cases hobject : slot.object with
  | none => simp [slotWeight, hobject] at hslot_pos
  | some object =>
    refine ⟨i, slot, object, by simpa using hi, hobject, ?_⟩
    simpa [slotWeight, hobject] using hslot_pos

/-! ## §2 Tidy tables -/

/-- The places where a table keeps what is occupied agree. -/
structure Tidy (registry : Registry α) : Prop where
  /-- No slot is on the free list twice. -/
  free_nodup : registry.free.Nodup
  /-- The free list holds exactly the unoccupied slots. -/
  mem_free_iff : ∀ index, index ∈ registry.free ↔
    ∃ slot, registry.slots[index]? = some slot ∧ slot.object = none
  /-- The live count is the number of the other slots. -/
  live_eq : registry.live = registry.weight fun _ => 1

theorem tidy_new (identity : UInt64) : (new identity : Registry α).Tidy where
  free_nodup := List.nodup_nil
  mem_free_iff := by simp [new]
  live_eq := rfl

/-! ## §3 What storing does -/

/-- An object was stored in a slot under a handle. -/
structure Stored (before : Registry α) (object : α) (after : Registry α) (handle : Handle)
    (index : Nat) : Prop where
  identity_eq : after.identity = before.identity
  handle_registry : handle.registry = before.identity
  handle_slot : handle.slot = index.toUInt64
  /-- The slot was free or is new. -/
  vacant : before.slots[index]? = some ⟨handle.nonce, none⟩ ∨
    before.slots.size = index ∧ handle.nonce = 1
  size_eq : after.slots.size = max before.slots.size (index + 1)
  filled : after.slots[index]? = some ⟨handle.nonce, some object⟩
  others : ∀ other, other ≠ index → after.slots[other]? = before.slots[other]?
  journal_eq : after.journal = .stored handle object :: before.journal
  weight_eq : ∀ w : α → Nat, after.weight w = before.weight w + w object
  /-- The table stays tidy. -/
  tidy : after.Tidy

theorem store_of_free {registry : Registry α} (object : α) {index : Nat} {rest : List Nat}
    (hfree : registry.free = index :: rest) {generation : UInt64}
    (hslot : registry.slots[index]? = some ⟨generation, none⟩) :
    registry.store object
      = ({ registry with
            slots := registry.slots.modify index (occupy object)
            free := rest
            live := registry.live + 1
            journal := .stored ⟨registry.identity, index.toUInt64, generation⟩ object
              :: registry.journal },
          ⟨registry.identity, index.toUInt64, generation⟩) := by
  have hfilled : (registry.slots.modify index (occupy object))[index]?
      = some ⟨generation, some object⟩ := by
    simp [Array.getElem?_modify, hslot, occupy]
  simp [store, hfree, record, handleAt, Registry.generation, hfilled]

theorem store_of_full {registry : Registry α} (object : α) (hfree : registry.free = []) :
    registry.store object
      = ({ registry with
            slots := registry.slots.push ⟨1, some object⟩
            live := registry.live + 1
            journal := .stored ⟨registry.identity, registry.slots.size.toUInt64, 1⟩ object
              :: registry.journal },
          ⟨registry.identity, registry.slots.size.toUInt64, 1⟩) := by
  simp [store, hfree, record, handleAt, Registry.generation]

/-- The slot on top of the free list is filled. -/
theorem store_stored_of_free {registry : Registry α} (htidy : registry.Tidy) (object : α)
    {index : Nat} {rest : List Nat} (hfree : registry.free = index :: rest) :
    Stored registry object (registry.store object).1 (registry.store object).2 index := by
  obtain ⟨slot, hslot, hvacant⟩ := (htidy.mem_free_iff index).mp (by simp [hfree])
  obtain ⟨hlt, hget⟩ := Array.getElem?_eq_some_iff.mp hslot
  obtain ⟨generation, content⟩ := slot
  simp only at hvacant
  subst hvacant
  have hnodup : index ∉ rest ∧ rest.Nodup := List.nodup_cons.mp (hfree ▸ htidy.free_nodup)
  have hweight : ∀ w : α → Nat,
      sumOf (slotWeight w) (registry.slots.modify index (occupy object)).toList
        = registry.weight w + w object := by
    intro w
    have hsum := sum_slotWeight_modify w (occupy object) hslot
    simpa [slotWeight, occupy, weight] using hsum
  have hfilled : (registry.slots.modify index (occupy object))[index]?
      = some ⟨generation, some object⟩ := by
    simp [Array.getElem?_modify, hslot, occupy]
  have hothers : ∀ other, other ≠ index →
      (registry.slots.modify index (occupy object))[other]? = registry.slots[other]? :=
    fun other hne => getElem?_modify_of_ne registry.slots (occupy object) hne
  rw [store_of_free object hfree hslot]
  refine
    { identity_eq := rfl
      handle_registry := rfl
      handle_slot := rfl
      vacant := Or.inl hslot
      size_eq := ?_
      filled := hfilled
      others := hothers
      journal_eq := rfl
      weight_eq := hweight
      tidy := ?_ }
  · simp only [Array.size_modify]
    omega
  · refine ⟨hnodup.2, fun other => ?_, ?_⟩
    · -- The filled slot has left the free list, and no other slot was touched.
      by_cases hother : other = index
      · subst hother
        simp [hfilled, hnodup.1]
      · have hmem := htidy.mem_free_iff other
        rw [hfree, List.mem_cons] at hmem
        simp only [hothers other hother]
        rw [← hmem]
        simp [hother]
    · show registry.live + 1 = _
      rw [htidy.live_eq]
      exact (hweight fun _ => 1).symm

/-- A new slot is appended, since none is free. -/
theorem store_stored_of_full {registry : Registry α} (htidy : registry.Tidy) (object : α)
    (hfree : registry.free = []) :
    Stored registry object (registry.store object).1 (registry.store object).2
      registry.slots.size := by
  have hfilled : (registry.slots.push ⟨1, some object⟩)[registry.slots.size]?
      = some ⟨1, some object⟩ := by simp
  have hothers : ∀ other, other ≠ registry.slots.size →
      (registry.slots.push ⟨1, some object⟩)[other]? = registry.slots[other]? := by
    intro other hne
    rw [Array.getElem?_push, if_neg hne]
  have hweight : ∀ w : α → Nat,
      sumOf (slotWeight w) (registry.slots.push ⟨1, some object⟩).toList
        = registry.weight w + w object := by
    intro w
    simp [slotWeight, weight]
  rw [store_of_full object hfree]
  refine
    { identity_eq := rfl
      handle_registry := rfl
      handle_slot := rfl
      vacant := Or.inr ⟨rfl, rfl⟩
      size_eq := ?_
      filled := hfilled
      others := hothers
      journal_eq := rfl
      weight_eq := hweight
      tidy := ?_ }
  · simp only [Array.size_push]
    omega
  · refine ⟨htidy.free_nodup, fun other => ?_, ?_⟩
    · -- The new slot is occupied from its beginning.
      by_cases hother : other = registry.slots.size
      · subst hother
        simp [hfree]
      · simp only [hothers other hother]
        exact htidy.mem_free_iff other
    · show registry.live + 1 = _
      rw [htidy.live_eq]
      exact (hweight fun _ => 1).symm

/-- Storing puts the object into one vacant slot and changes no other. -/
theorem store_stored {registry : Registry α} (htidy : registry.Tidy) (object : α) :
    ∃ index, Stored registry object (registry.store object).1 (registry.store object).2 index := by
  cases hfree : registry.free with
  | nil => exact ⟨_, store_stored_of_full htidy object hfree⟩
  | cons index rest => exact ⟨index, store_stored_of_free htidy object hfree⟩

/-! ## §4 What giving up does -/

/-- The entry that a handle named was given up. -/
structure Vacated (before : Registry α) (handle : Handle) (object : α) (after : Registry α) :
    Prop where
  identity_eq : after.identity = before.identity
  handle_registry : handle.registry = before.identity
  occupied : before.slots[handle.slot.toNat]? = some ⟨handle.nonce, some object⟩
  size_eq : after.slots.size = before.slots.size
  emptied : after.slots[handle.slot.toNat]? = some ⟨nextGeneration handle.nonce, none⟩
  others : ∀ other, other ≠ handle.slot.toNat → after.slots[other]? = before.slots[other]?
  journal_eq : after.journal = .released handle :: before.journal
  weight_eq : ∀ w : α → Nat, after.weight w + w object = before.weight w
  /-- The table stays tidy. -/
  tidy : after.Tidy

/-- A handle borrows an object exactly if its slot holds the object under its nonce. -/
theorem borrow_eq_ok_iff_slot (registry : Registry α) (handle : Handle) (object : α) :
    registry.borrow handle = .ok object ↔ handle.registry = registry.identity ∧
      registry.slots[handle.slot.toNat]? = some ⟨handle.nonce, some object⟩ := by
  rw [borrow_eq_ok_iff]
  refine and_congr_right fun _ => ?_
  unfold entry?
  rcases registry.slots[handle.slot.toNat]? with _ | ⟨generation, content⟩
  · simp
  · by_cases hgeneration : generation = handle.nonce <;> simp [hgeneration]

/-- A handle of the registry that borrows nothing is stale. -/
theorem borrow_of_dead {registry : Registry α} {handle : Handle}
    (hown : handle.registry = registry.identity)
    (hdead : ∀ object, registry.borrow handle ≠ .ok object) :
    registry.borrow handle = .error (.stale handle.slot handle.nonce) := by
  refine borrow_stale hown (Option.eq_none_iff_forall_ne_some.mpr fun object hentry => ?_)
  exact hdead object ((borrow_eq_ok_iff _ _ _).mpr ⟨hown, hentry⟩)

/-- Giving up a live entry empties its slot and changes no other. -/
theorem vacateAt_vacated {registry : Registry α} (htidy : registry.Tidy) {handle : Handle}
    {object : α} (hborrow : registry.borrow handle = .ok object) :
    Vacated registry handle object (registry.vacateAt handle.slot.toNat) := by
  obtain ⟨hregistry, hslot⟩ := (borrow_eq_ok_iff_slot registry handle object).mp hborrow
  have hhandle : registry.handleAt handle.slot.toNat = handle := by
    obtain ⟨identity, slot, nonce⟩ := handle
    simp only at hregistry hslot
    simp [handleAt, Registry.generation, hslot, hregistry]
  have hemptied : (registry.slots.modify handle.slot.toNat vacate)[handle.slot.toNat]?
      = some ⟨nextGeneration handle.nonce, none⟩ := by
    simp [Array.getElem?_modify, hslot, vacate]
  have hothers : ∀ other, other ≠ handle.slot.toNat →
      (registry.slots.modify handle.slot.toNat vacate)[other]? = registry.slots[other]? :=
    fun other hne => getElem?_modify_of_ne registry.slots vacate hne
  have hweight : ∀ w : α → Nat,
      sumOf (slotWeight w) (registry.slots.modify handle.slot.toNat vacate).toList + w object
        = registry.weight w := by
    intro w
    have hsum := sum_slotWeight_modify w vacate hslot
    simpa [slotWeight, vacate, weight] using hsum
  -- An occupied slot is not on the free list yet.
  have hnot_free : handle.slot.toNat ∉ registry.free := by
    rw [htidy.mem_free_iff]
    rintro ⟨slot, hsame, hvacant⟩
    rw [hslot] at hsame
    cases hsame
    cases hvacant
  refine
    { identity_eq := rfl
      handle_registry := hregistry
      occupied := hslot
      size_eq := Array.size_modify
      emptied := hemptied
      others := hothers
      journal_eq := ?_
      weight_eq := hweight
      tidy := ?_ }
  · show Event.released (registry.handleAt handle.slot.toNat) :: registry.journal = _
    rw [hhandle]
  · refine ⟨List.nodup_cons.mpr ⟨hnot_free, htidy.free_nodup⟩, fun other => ?_, ?_⟩
    · show other ∈ handle.slot.toNat :: registry.free ↔
        ∃ slot, (registry.slots.modify handle.slot.toNat vacate)[other]? = some slot ∧ _
      by_cases hother : other = handle.slot.toNat
      · subst hother
        simp [hemptied]
      · rw [List.mem_cons, hothers other hother]
        simpa [hother] using htidy.mem_free_iff other
    · -- The live count was positive, as the entry that went was counted.
      show registry.live - 1 = _
      rw [htidy.live_eq, ← hweight fun _ => 1]
      rfl

end Registry

end Ferry
