import Ferry.Fault

/-!
# Registries

A registry keeps objects in numbered slots and names each entry by a handle.  A slot that is given
up goes on top of the free list and is the first to be used again; its generation advances, so
handles to the old entry are stale.

The objects are of any type `α`: a registry neither copies nor looks into them.

A registry keeps a journal of the entries that were made and given up.  No operation looks into it;
statements about what happened before do.

Main statements: a handle borrows an object exactly when it carries the registry's identity and
names a live entry (`borrow_eq_ok_iff`); the reasons for failing follow in a fixed order
(`borrow_foreign`, `borrow_stale`); and fetching removes an entry exactly when borrowing finds one
(`fetch_eq_ok_iff`).

## Sections

1. The slot table and the journal.
2. Storing and looking up.
3. Giving up.
4. Laws of the operations.
-/

namespace Ferry

/-! ## §1 The slot table and the journal -/

/-- A place for an object, with the generation that the next or present entry has. -/
structure Slot (α : Type) where
  generation : UInt64
  object : Option α
  deriving DecidableEq, Inhabited

/-- The generation after another.  Zero is no generation: the count wraps to one. -/
def nextGeneration (generation : UInt64) : UInt64 :=
  if generation + 1 = 0 then 1 else generation + 1

/-- What happened to an entry. -/
inductive Event (α : Type) where
  /-- An object was stored under a handle. -/
  | stored (handle : Handle) (object : α)
  /-- The entry that a handle named was given up. -/
  | released (handle : Handle)
  deriving DecidableEq

namespace Event

variable {α : Type}

/-- The handle of an entry that was made. -/
def issued? : Event α → Option Handle
  | stored handle _ => some handle
  | released _ => none

/-- The handle of an entry that was given up. -/
def released? : Event α → Option Handle
  | stored _ _ => none
  | released handle => some handle

end Event

/-- Objects in numbered slots. -/
structure Registry (α : Type) where
  /-- What handles of this registry carry. -/
  identity : UInt64
  slots : Array (Slot α) := #[]
  /-- The unoccupied slots, the one given up last in front. -/
  free : List Nat := []
  /-- The number of occupied slots. -/
  live : Nat := 0
  /-- What happened to the entries, the latest first. -/
  journal : List (Event α) := []
  deriving DecidableEq, Inhabited

namespace Registry

variable {α : Type}

/-- A registry without slots. -/
def new (identity : UInt64) : Registry α :=
  { identity }

/-- Writes an event into the journal. -/
def record (registry : Registry α) (event : Event α) : Registry α :=
  { registry with journal := event :: registry.journal }

/-- The handles of all entries ever made, the latest first. -/
def issued (registry : Registry α) : List Handle :=
  registry.journal.filterMap Event.issued?

/-- The handles of all entries that were given up, the latest first. -/
def released (registry : Registry α) : List Handle :=
  registry.journal.filterMap Event.released?

/-- How many entries of a slot were given up. -/
def releasesAt (registry : Registry α) (index : Nat) : Nat :=
  registry.released.countP fun handle => handle.slot.toNat == index

/-! ## §2 Storing and looking up -/

/-- Puts an object into an unoccupied slot. -/
def occupy (object : α) (slot : Slot α) : Slot α :=
  { slot with object := some object }

/-- The generation of a slot. -/
def generation (registry : Registry α) (index : Nat) : UInt64 :=
  match registry.slots[index]? with
  | some slot => slot.generation
  | none => 0

/-- The handle of the present entry of a slot. -/
def handleAt (registry : Registry α) (index : Nat) : Handle :=
  { registry := registry.identity, slot := index.toUInt64, nonce := registry.generation index }

/-- Stores an object in the slot given up last or, if none is free, in a new slot whose first
generation is one. -/
def store (registry : Registry α) (object : α) : Registry α × Handle :=
  match registry.free with
  | index :: rest =>
    let stored : Registry α :=
      { registry with
        slots := registry.slots.modify index (occupy object)
        free := rest
        live := registry.live + 1 }
    let handle := stored.handleAt index
    (stored.record (.stored handle object), handle)
  -- Every slot is occupied.
  | [] =>
    let index := registry.slots.size
    let stored : Registry α :=
      { registry with
        slots := registry.slots.push { generation := 1, object := some object }
        live := registry.live + 1 }
    let handle := stored.handleAt index
    (stored.record (.stored handle object), handle)

/-- The object that a handle of this registry names, if its entry is live. -/
def entry? (registry : Registry α) (handle : Handle) : Option α :=
  match registry.slots[handle.slot.toNat]? with
  | some slot => if slot.generation = handle.nonce then slot.object else none
  | none => none

/-- The object that a handle names.  The identity is looked at first. -/
def borrow (registry : Registry α) (handle : Handle) : Except Fault α :=
  if handle.registry ≠ registry.identity then
    .error (.foreignRegistry registry.identity handle.registry)
  else
    match registry.entry? handle with
    | some object => .ok object
    | none => .error (.stale handle.slot handle.nonce)

/-- Checks that a handle names a live entry. -/
def validate (registry : Registry α) (handle : Handle) : Except Fault Unit :=
  (registry.borrow handle).map fun _ => ()

/-- Whether a handle names a live entry. -/
def contains (registry : Registry α) (handle : Handle) : Bool :=
  (registry.borrow handle).toBool

/-- The object that a handle names, if it passes a test. -/
def borrowIf (registry : Registry α) (test : α → Bool) (mismatch : Fault) (handle : Handle) :
    Except Fault α :=
  match registry.borrow handle with
  | .error fault => .error fault
  | .ok object => if test object then .ok object else .error mismatch

/-! ## §3 Giving up -/

/-- Empties a slot and advances its generation. -/
def vacate (slot : Slot α) : Slot α :=
  { generation := nextGeneration slot.generation, object := none }

/-- Empties a slot of the table and puts it on top of the free list. -/
def vacateAt (registry : Registry α) (index : Nat) : Registry α :=
  { registry with
    slots := registry.slots.modify index vacate
    free := index :: registry.free
    live := registry.live - 1
    journal := .released (registry.handleAt index) :: registry.journal }

/-- Removes the entry that a handle names and returns its object. -/
def fetch (registry : Registry α) (handle : Handle) : Except Fault (Registry α × α) :=
  match registry.borrow handle with
  | .error fault => .error fault
  | .ok object => .ok (registry.vacateAt handle.slot.toNat, object)

/-- Removes the entry that a handle names, if its object passes a test. -/
def fetchIf (registry : Registry α) (test : α → Bool) (mismatch : Fault) (handle : Handle) :
    Except Fault (Registry α × α) :=
  match registry.borrowIf test mismatch handle with
  | .error fault => .error fault
  | .ok object => .ok (registry.vacateAt handle.slot.toNat, object)

/-! ## §4 Laws of the operations -/

@[simp] theorem identity_store (registry : Registry α) (object : α) :
    (registry.store object).1.identity = registry.identity := by
  unfold store
  split <;> rfl

@[simp] theorem identity_vacateAt (registry : Registry α) (index : Nat) :
    (registry.vacateAt index).identity = registry.identity := rfl

theorem borrow_eq_ok_iff (registry : Registry α) (handle : Handle) (object : α) :
    registry.borrow handle = .ok object ↔
      handle.registry = registry.identity ∧ registry.entry? handle = some object := by
  unfold borrow
  by_cases own : handle.registry = registry.identity
  · cases found : registry.entry? handle <;> simp [own]
  · simp [own]

/-- A handle of another registry is refused as foreign, whatever else it names. -/
theorem borrow_foreign {registry : Registry α} {handle : Handle}
    (other : handle.registry ≠ registry.identity) :
    registry.borrow handle = .error (.foreignRegistry registry.identity handle.registry) := by
  simp [borrow, other]

/-- A handle of this registry that names no live entry is refused as stale. -/
theorem borrow_stale {registry : Registry α} {handle : Handle}
    (own : handle.registry = registry.identity) (gone : registry.entry? handle = none) :
    registry.borrow handle = .error (.stale handle.slot handle.nonce) := by
  simp [borrow, own, gone]

/-- Fetching finds what borrowing finds, and removes just that entry. -/
theorem fetch_eq_ok_iff (registry after : Registry α) (handle : Handle) (object : α) :
    registry.fetch handle = .ok (after, object) ↔
      registry.borrow handle = .ok object ∧ after = registry.vacateAt handle.slot.toNat := by
  unfold fetch
  cases registry.borrow handle with
  | error fault => simp
  | ok found =>
    simp only [Except.ok.injEq, Prod.mk.injEq]
    exact ⟨fun ⟨same, found⟩ => ⟨found, same.symm⟩, fun ⟨found, same⟩ => ⟨same.symm, found⟩⟩

theorem identity_fetch {registry after : Registry α} {handle : Handle} {object : α}
    (fetched : registry.fetch handle = .ok (after, object)) :
    after.identity = registry.identity := by
  unfold fetch at fetched
  split at fetched
  · cases fetched
  · cases fetched
    rfl

end Registry

end Ferry
