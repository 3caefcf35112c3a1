import Ferry.Code
import Ferry.KeyedList
import Ferry.Payload

/-!
# Statuses

A status reports the outcome of a call: a code, a message, and payloads in named slots.  The code
never changes.  Success has no message: one that is given is dropped.  Slots keep the order in which
their keys came in.

Statuses here are plain values.  What their payloads own is accounted for by the holdings, which
also perform the changes that let owners go.
-/

namespace Ferry

/-- A code, a message and named payloads. -/
structure Status where
  code : Code
  message : String
  slots : KeyedList Payload := {}
  deriving DecidableEq, Inhabited

namespace Status

/-- The text that a status of a code keeps: success keeps none. -/
def keptMessage (code : Code) (message : String) : String :=
  if code.isOk then "" else message

/-- A status without slots. -/
def new (code : Code) (message : String) : Status :=
  { code, message := keptMessage code message }

/-- Success. -/
def ok : Status :=
  new .ok ""

/-- Whether the status reports success. -/
def isOk (status : Status) : Bool :=
  status.code.isOk

/-- Replaces the message of a failure.  Success stays as it is. -/
def setMessage (status : Status) (message : String) : Status :=
  if status.isOk then status else { status with message }

/-- Puts a payload in a slot: in its place if the slot exists, behind the others if not. -/
def setSlot (status : Status) (key : String) (payload : Payload) : Status :=
  { status with slots := status.slots.insert key payload }

/-- Removes a slot. -/
def eraseSlot (status : Status) (key : String) : Status :=
  { status with slots := status.slots.erase key }

/-- The payload in a slot. -/
def slot? (status : Status) (key : String) : Option Payload :=
  status.slots.find? key

/-- The bytes in a slot. -/
def bytes? (status : Status) (key : String) : Option (List UInt8) :=
  (status.slot? key).map Payload.bytes

/-- The keys of the slots in order. -/
def keys (status : Status) : List String :=
  status.slots.keys

/-- The payloads of the slots in order. -/
def payloads (status : Status) : List Payload :=
  status.slots.values

/-- The owners that the slots hold shares of, in order. -/
def owners (status : Status) : List OwnerRef :=
  status.payloads.filterMap Payload.owner

/-- The bytes of all slots in order. -/
def allBytes (status : Status) : KeyedList (List UInt8) :=
  status.slots.map Payload.bytes

/-- A status of the same code and message whose slots hold the same bytes without owners. -/
def snapshot (status : Status) : Status :=
  status.allBytes.entries.foldl (fun copy entry => copy.setSlot entry.1 (.ofBytes entry.2))
    (new status.code status.message)

/-- Whether each of the slots is matched by a slot of the same key and bytes. -/
def slotsWithin (slots : List (String × Payload)) (other : KeyedList Payload) : Bool :=
  slots.all fun entry =>
    match other.find? entry.1 with
    | some payload => entry.2.alike payload
    | none => false

/-- Whether two statuses report the same: equal codes and messages, as many slots, and each slot of
the first matched in the second.  The order of slots and their owners do not count. -/
def alike (a b : Status) : Bool :=
  a.code == b.code && a.message == b.message
    && (a.slots.size == b.slots.size && slotsWithin a.slots.entries b.slots)

@[simp] theorem code_setMessage (status : Status) (message : String) :
    (status.setMessage message).code = status.code := by
  unfold setMessage
  split <;> rfl

@[simp] theorem code_setSlot (status : Status) (key : String) (payload : Payload) :
    (status.setSlot key payload).code = status.code := rfl

@[simp] theorem message_setSlot (status : Status) (key : String) (payload : Payload) :
    (status.setSlot key payload).message = status.message := rfl

@[simp] theorem slot?_setSlot_self (status : Status) (key : String) (payload : Payload) :
    (status.setSlot key payload).slot? key = some payload :=
  KeyedList.find?_insert_self _ _ _

theorem slot?_setSlot_of_ne (status : Status) {key other : String} (payload : Payload)
    (ne : other ≠ key) : (status.setSlot key payload).slot? other = status.slot? other :=
  KeyedList.find?_insert_of_ne _ _ ne

theorem slot?_eraseSlot_of_ne (status : Status) {key other : String} (ne : other ≠ key) :
    (status.eraseSlot key).slot? other = status.slot? other :=
  KeyedList.find?_erase_of_ne _ ne

end Status

end Ferry
