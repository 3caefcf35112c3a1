import Ferry.Holdings.Release

/-!
# Slots and what they own

Changes of a status that let owners go.  A payload that is put into a slot hands its share to the
status; one that is replaced or erased gives its share up after the change; one that is taken hands
its share to the caller.
-/

namespace Ferry

/-- Takes the payload out of a slot, together with its share. -/
def Status.take? (status : Status) (key : String) : Option (Payload × Status) :=
  (status.slot? key).map fun payload => (payload, status.eraseSlot key)

namespace Holdings

/-- Gives up what a payload holds, if there is one. -/
def dropOptional (h : Holdings) : Option Payload → Holdings
  | some payload => h.dropPayload payload
  | none => h

/-- Puts a payload into a slot and drops the one it replaces. -/
def setSlot (h : Holdings) (status : Status) (key : String) (payload : Payload) :
    Holdings × Status :=
  (h.dropOptional (status.slot? key), status.setSlot key payload)

/-- Removes a slot and drops its payload. -/
def eraseSlot (h : Holdings) (status : Status) (key : String) : Holdings × Status :=
  (h.dropOptional (status.slot? key), status.eraseSlot key)

end Holdings

end Ferry
