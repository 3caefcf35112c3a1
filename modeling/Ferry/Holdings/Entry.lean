import Ferry.Holdings.Release

/-!
# Registry entries

The operations of a registry within the holdings.  Storing uses up the caller's share of the object;
borrowing adds a share for the caller; fetching hands the entry's share over; releasing gives it up.
-/

namespace Ferry.Holdings

/-- Stores an object.  Takes a share of it. -/
def store (h : Holdings) (r : Nat) (object : Object) : Holdings × Handle :=
  let stored := (h.registry r).store object
  (h.setRegistry r stored.1, stored.2)

/-- Checks that a handle names a live entry. -/
def validate (h : Holdings) (r : Nat) (handle : Handle) : Except Fault Unit :=
  (h.registry r).validate handle

/-- Whether a handle names a live entry. -/
def contains (h : Holdings) (r : Nat) (handle : Handle) : Bool :=
  (h.registry r).contains handle

/-- Adds a share of an object that was found. -/
def lend (h : Holdings) : Except Fault Object → Holdings × Except Fault Object
  | .ok object => (h.retainObject object, .ok object)
  | .error fault => (h, .error fault)

/-- Puts back a registry from which an entry was taken. -/
def handOver (h : Holdings) (r : Nat) :
    Except Fault (Registry Object × Object) → Holdings × Except Fault Object
  | .ok (registry, object) => (h.setRegistry r registry, .ok object)
  | .error fault => (h, .error fault)

/-- The object that a handle names, with a share for the caller. -/
def borrow (h : Holdings) (r : Nat) (handle : Handle) : Holdings × Except Fault Object :=
  h.lend ((h.registry r).borrow handle)

/-- The object that a handle names, if it is of a type, with a share for the caller. -/
def borrowAs (h : Holdings) (r : Nat) (type : ObjectType) (handle : Handle) :
    Holdings × Except Fault Object :=
  h.lend ((h.registry r).borrowIf (h.hasType type) (.typeMismatch type) handle)

/-- Removes an entry and hands its share over to the caller. -/
def fetch (h : Holdings) (r : Nat) (handle : Handle) : Holdings × Except Fault Object :=
  h.handOver r ((h.registry r).fetch handle)

/-- Removes an entry whose object is of a type and hands its share over to the caller. -/
def fetchAs (h : Holdings) (r : Nat) (type : ObjectType) (handle : Handle) :
    Holdings × Except Fault Object :=
  h.handOver r ((h.registry r).fetchIf (h.hasType type) (.typeMismatch type) handle)

/-- Removes an entry and gives up its share. -/
def release (h : Holdings) (r : Nat) (handle : Handle) : Holdings × Except Fault Unit :=
  match h.fetch r handle with
  | (after, .ok object) => (after.dropObject object, .ok ())
  | (after, .error fault) => (after, .error fault)

/-- A call that fails to borrow changes nothing. -/
theorem lend_error (h : Holdings) (fault : Fault) : h.lend (.error fault) = (h, .error fault) := rfl

end Ferry.Holdings
