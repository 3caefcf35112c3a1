import Ferry.Exception.Graph
import Ferry.Registry
import Ferry.Status.Basic

/-!
# Holdings

The holdings are everything that is alive: the registries with their entries, the items that are
stored or about to be stored, the owners that payloads hold, the exceptions, and the tallies of
owners that only count their own end.

What keeps what alive:

- a registry entry holds one share of its object, an item or an exception;
- an item that is a status holds the shares of its payloads;
- a payload holds one share of its owner, if it has one;
- an exception holds one share of each exception it links to;
- an owner, when its last share goes, does its duty: it gives up a registry entry or adds to a
  tally.
-/

namespace Ferry

/-- Names one item. -/
abbrev ItemRef := Ref .item

/-- What a registry entry refers to. -/
inductive Object where
  | item (ref : ItemRef)
  | exception (ref : ExceptionRef)
  deriving DecidableEq, Inhabited

/-- The content of an item. -/
inductive Item where
  | number (value : UInt64)
  | text (value : String)
  | bytes (value : List UInt8)
  | status (value : Status)
  deriving DecidableEq

/-- The type of an item. -/
def Item.type : Item → ObjectType
  | number _ => .number
  | text _ => .text
  | bytes _ => .bytes
  | status _ => .status

/-- What an owner does when it goes. -/
inductive Duty where
  /-- It gives up a registry entry. -/
  | entry (registry : Nat) (handle : Handle)
  /-- It adds one to a tally. -/
  | tally (counter : Nat)
  deriving DecidableEq

/-- The handle of the entry that an owner gives up. -/
def Duty.handle? : Duty → Option Handle
  | entry _ handle => some handle
  | tally _ => none

/-- Everything that is alive, and how many hold it. -/
structure Holdings where
  registries : Array (Registry Object) := #[]
  owners : Pool .owner Duty := {}
  items : Pool .item Item := {}
  exceptions : ExceptionGraph := {}
  /-- For each counter, how many of its owners have gone. -/
  tallies : Array Nat := #[]
  deriving DecidableEq, Inhabited

namespace Holdings

/-- The holdings with empty registries of the given identities and nothing else. -/
def start (identities : List UInt64) : Holdings :=
  { registries := (identities.map Registry.new).toArray }

/-- The registry at a place.  A place without a registry reads as an empty one. -/
def registry (h : Holdings) (r : Nat) : Registry Object :=
  h.registries.getD r (Registry.new 0)

/-- Exchanges the registry at a place. -/
def setRegistry (h : Holdings) (r : Nat) (registry : Registry Object) : Holdings :=
  { h with registries := h.registries.setIfInBounds r registry }

/-- The numbers of live entries, registry by registry. -/
def liveCounts (h : Holdings) : List Nat :=
  h.registries.toList.map Registry.live

/-- The type of an object that is alive. -/
def typeOf? (h : Holdings) : Object → Option ObjectType
  | .item ref => (h.items.content? ref).map Item.type
  | .exception _ => some .exception

/-- Whether an object is of a type. -/
def hasType (h : Holdings) (type : ObjectType) (object : Object) : Bool :=
  h.typeOf? object == some type

theorem hasType_iff {h : Holdings} {type : ObjectType} {object : Object} :
    h.hasType type object = true ↔ h.typeOf? object = some type :=
  beq_iff_eq

/-! ## Adding shares -/

/-- Adds a share of an exception. -/
def retainException (h : Holdings) (e : ExceptionRef) : Holdings :=
  { h with exceptions := h.exceptions.retain e }

/-- Adds a share of an object. -/
def retainObject (h : Holdings) : Object → Holdings
  | .item ref => { h with items := h.items.retain ref }
  | .exception ref => h.retainException ref

/-- Adds a share of an owner. -/
def retainOwner (h : Holdings) (owner : OwnerRef) : Holdings :=
  { h with owners := h.owners.retain owner }

/-- Adds the share that another copy of a payload holds. -/
def retainPayload (h : Holdings) (payload : Payload) : Holdings :=
  match payload.owner with
  | some owner => h.retainOwner owner
  | none => h

/-- Adds the shares that another copy of a status holds. -/
def retainStatus (h : Holdings) (status : Status) : Holdings :=
  status.owners.foldl retainOwner h

/-! ## Making values -/

/-- Takes in an item, with one share for the caller. -/
def newItem (h : Holdings) (item : Item) : Holdings × ItemRef :=
  let made := h.items.insert item
  ({ h with items := made.1 }, made.2)

/-- Takes in an owner, with one share for the caller. -/
def newOwner (h : Holdings) (duty : Duty) : Holdings × OwnerRef :=
  let made := h.owners.insert duty
  ({ h with owners := made.1 }, made.2)

/-- Makes an exception without links, with one share for the caller. -/
def newException (h : Holdings) (kind : Kind) (message : String) : Holdings × ExceptionRef :=
  let made := ExceptionGraph.create h.exceptions kind message
  ({ h with exceptions := made.1 }, made.2)

/-- Opens a counter whose tally is zero. -/
def newCounter (h : Holdings) : Holdings × Nat :=
  ({ h with tallies := h.tallies.push 0 }, h.tallies.size)

end Holdings

end Ferry
