import Ferry.Holdings.Entry
import Ferry.Holdings.Slots
import Ferry.Token

/-!
# Objects that ride along in slots

An object is put into a slot by storing it and writing a token of its handle, under an owner whose
duty is to give the entry up.  Dropping the last payload that holds the owner thus ends the entry.
Token bytes without that owner are not honoured, wherever they were copied to.

A payload is consumed by taking its object out.  If it held the last share of its owner, the entry
goes and its share of the object is handed over; otherwise the object is only borrowed and the other
holders keep the entry alive.
-/

namespace Ferry.Holdings

/-! ## Writing -/

/-- Stores an object and makes the payload that names and owns the entry.  Takes a share of the
object. -/
def mint (h : Holdings) (r : Nat) (object : Object) : Holdings × Payload :=
  let stored := h.store r object
  let owned := stored.1.newOwner (.entry r stored.2)
  (owned.1, { bytes := Token.encode stored.2, owner := some owned.2 })

/-- Writes an object to a slot, or erases the slot for lack of one.  The new object is stored before
the payload in the slot is dropped. -/
def write (h : Holdings) (r : Nat) (status : Status) (key : String) :
    Option Object → Holdings × Status
  | some object =>
    let minted := h.mint r object
    minted.1.setSlot status key minted.2
  | none => h.eraseSlot status key

/-! ## Resolving -/

/-- The handle that an owner was minted for. -/
def entryOf? (h : Holdings) (owner : OwnerRef) : Option Handle :=
  (h.owners.content? owner).bind Duty.handle?

/-- The handle that bytes name, if its entry in a registry is live. -/
def decode (h : Holdings) (r : Nat) (bytes : List UInt8) : Except Fault Handle :=
  match Token.parse bytes with
  | .error fault => .error fault
  | .ok handle =>
    match h.validate r handle with
    | .error fault => .error fault
    | .ok () => .ok handle

/-- The handle that a payload names and the owner it names it under.  The form of the bytes is
checked first, then the entry, then the owner. -/
def resolve (h : Holdings) (r : Nat) (payload : Payload) :
    Except Fault (Handle × OwnerRef) :=
  match h.decode r payload.bytes with
  | .error fault => .error fault
  | .ok handle =>
    match payload.owner with
    | none => .error .detached
    | some owner =>
      if h.entryOf? owner = some handle then .ok (handle, owner) else .error .detached

/-- Ends an owner in place of its duty and hands its entry's share over.  The owner must have one
share, the caller's. -/
def redeem (h : Holdings) (owner : OwnerRef) : Holdings × Except Fault Object :=
  let released := h.owners.release owner
  match released.2 with
  | some (.entry r handle) => { h with owners := released.1 }.fetch r handle
  -- An owner without an entry was resolved by no payload.
  | _ => ({ h with owners := released.1 }, .error .detached)

/-- Takes the object out of a payload, which is used up whether this succeeds or not. -/
def consume (h : Holdings) (r : Nat) (payload : Payload) : Holdings × Except Fault Object :=
  match h.resolve r payload with
  | .error fault => (h.dropPayload payload, .error fault)
  | .ok (handle, owner) =>
    -- The last holder takes the entry with it; others leave it to those that remain.
    if h.owners.holders owner ≤ 1 then h.redeem owner
    else
      let borrowed := h.borrow r handle
      (borrowed.1.dropPayload payload, borrowed.2)

/-- Hands an object on if it is of a type.  An object of another type is dropped. -/
def downcast (h : Holdings) (type : ObjectType) :
    Except Fault Object → Holdings × Except Fault Object
  | .ok object =>
    if h.hasType type object then (h, .ok object)
    else (h.dropObject object, .error (.typeMismatch type))
  | .error fault => (h, .error fault)

theorem downcast_of_hasType {h : Holdings} {type : ObjectType} {object : Object}
    (htype : h.hasType type object = true) : h.downcast type (.ok object) = (h, .ok object) := by
  simp only [downcast, htype, if_true]

/-- Takes an exception out of a payload.  An object of another sort is dropped. -/
def unpackException (h : Holdings) (r : Nat) (payload : Payload) :
    Holdings × Except Fault ExceptionRef :=
  match h.consume r payload with
  | (after, .ok (.exception e)) => (after, .ok e)
  | (after, .ok (.item ref)) =>
    (after.dropObject (.item ref), .error (.typeMismatch .exception))
  | (after, .error fault) => (after, .error fault)

/-! ## Reading and taking -/

/-- The object in a slot, with a share for the caller; `none` for an absent slot. -/
def read (h : Holdings) (r : Nat) (status : Status) (key : String) (type : ObjectType) :
    Holdings × Except Fault (Option Object) :=
  match status.slot? key with
  | none => (h, .ok none)
  | some payload =>
    match h.resolve r payload with
    | .error fault => (h, .error fault)
    | .ok (handle, _) =>
      let borrowed := h.borrowAs r type handle
      (borrowed.1, borrowed.2.map some)

/-- What a slot holds of a type, checked before the slot is touched. -/
def inspect (h : Holdings) (r : Nat) (payload : Payload) (type : ObjectType) :
    Except Fault Object :=
  match h.resolve r payload with
  | .error fault => .error fault
  | .ok (handle, _) => (h.registry r).borrowIf (h.hasType type) (.typeMismatch type) handle

/-- Removes a slot and hands its object over; `none` for an absent slot.  The payload is inspected
while the slot is in place, and consumed when it is gone; what the consumption yields is looked at
once more. -/
def takeOut (h : Holdings) (r : Nat) (status : Status) (key : String) (type : ObjectType) :
    Holdings × Status × Except Fault (Option Object) :=
  match status.take? key with
  | none => (h, status, .ok none)
  | some (payload, rest) =>
    match h.inspect r payload type with
    | .error fault => (h, status, .error fault)
    | .ok _ =>
      let consumed := h.consume r payload
      let handed := consumed.1.downcast type consumed.2
      (handed.1, rest, handed.2.map some)

/-- Sends an object through a token and back, as an object of its own type.  Takes a share and
returns one. -/
def throughToken (h : Holdings) (r : Nat) (object : Object) : Holdings × Except Fault Object :=
  let minted := h.mint r object
  let consumed := minted.1.consume r minted.2
  match h.typeOf? object with
  | some type => consumed.1.downcast type consumed.2
  -- What is alive has a type.
  | none => consumed

end Ferry.Holdings
