/-!
# Insertion-ordered maps

A keyed list is a finite map from strings that remembers the order in which its keys came in.
Writing a key that is present keeps the key's place; writing an absent key appends it; removing a
key keeps the order of the others.

Main statements: what a look-up finds after each operation (`find?_insert_self`,
`find?_insert_of_ne`, `find?_erase_of_ne`), and that a key is listed exactly when a look-up finds
something (`find?_isSome_iff`).
-/

namespace Ferry

/-- A map from strings in the order of insertion. -/
structure KeyedList (α : Type) where
  /-- The bindings in order. -/
  entries : List (String × α) := []
  deriving DecidableEq, Inhabited

namespace KeyedList

variable {α β : Type}

/-- The map without bindings. -/
def empty : KeyedList α :=
  {}

/-- The value bound to a key. -/
def find? (m : KeyedList α) (key : String) : Option α :=
  m.entries.lookup key

/-- Whether a key is bound. -/
def contains (m : KeyedList α) (key : String) : Bool :=
  (m.find? key).isSome

/-- Binds a key in a row of bindings, in its place if it has one and at the end otherwise. -/
def insertEntry (key : String) (value : α) : List (String × α) → List (String × α)
  | [] => [(key, value)]
  | (k, v) :: rest =>
    if key == k then (key, value) :: rest else (k, v) :: insertEntry key value rest

/-- Binds a key to a value. -/
def insert (m : KeyedList α) (key : String) (value : α) : KeyedList α :=
  ⟨insertEntry key value m.entries⟩

/-- Removes a key from a row of bindings. -/
def eraseEntry (key : String) : List (String × α) → List (String × α)
  | [] => []
  | (k, v) :: rest => if key == k then rest else (k, v) :: eraseEntry key rest

/-- Removes the binding of a key. -/
def erase (m : KeyedList α) (key : String) : KeyedList α :=
  ⟨eraseEntry key m.entries⟩

/-- The keys in order. -/
def keys (m : KeyedList α) : List String :=
  m.entries.map Prod.fst

/-- The values in order. -/
def values (m : KeyedList α) : List α :=
  m.entries.map Prod.snd

/-- The number of bindings. -/
def size (m : KeyedList α) : Nat :=
  m.entries.length

/-- The same keys bound to the images of their values. -/
def map (f : α → β) (m : KeyedList α) : KeyedList β :=
  ⟨m.entries.map fun entry => (entry.1, f entry.2)⟩

/-! ## What a look-up finds -/

@[simp] theorem find?_empty (key : String) : (empty : KeyedList α).find? key = none := rfl

@[simp] theorem find?_insert_self (m : KeyedList α) (key : String) (value : α) :
    (m.insert key value).find? key = some value := by
  obtain ⟨entries⟩ := m
  simp only [find?, insert]
  induction entries with
  | nil => simp [insertEntry]
  | cons entry rest ih =>
    obtain ⟨k, v⟩ := entry
    by_cases same : key = k
    · simp [insertEntry, same]
    · have differ : (key == k) = false := by simpa using same
      simp [insertEntry, List.lookup_cons, differ, ih]

theorem find?_insert_of_ne (m : KeyedList α) {key other : String} (value : α)
    (ne : other ≠ key) : (m.insert key value).find? other = m.find? other := by
  obtain ⟨entries⟩ := m
  simp only [find?, insert]
  induction entries with
  | nil =>
    have differ : (other == key) = false := by simpa using ne
    simp [insertEntry, List.lookup_cons, differ]
  | cons entry rest ih =>
    obtain ⟨k, v⟩ := entry
    by_cases same : key = k
    · subst same
      have differ : (other == key) = false := by simpa using ne
      simp [insertEntry, List.lookup_cons, differ]
    · have differ : (key == k) = false := by simpa using same
      simp [insertEntry, List.lookup_cons, differ, ih]

theorem find?_erase_of_ne (m : KeyedList α) {key other : String} (ne : other ≠ key) :
    (m.erase key).find? other = m.find? other := by
  obtain ⟨entries⟩ := m
  simp only [find?, erase]
  induction entries with
  | nil => rfl
  | cons entry rest ih =>
    obtain ⟨k, v⟩ := entry
    by_cases same : key = k
    · subst same
      have differ : (other == key) = false := by simpa using ne
      simp [eraseEntry, List.lookup_cons, differ]
    · have differ : (key == k) = false := by simpa using same
      simp [eraseEntry, List.lookup_cons, differ, ih]

theorem find?_isSome_iff (m : KeyedList α) (key : String) :
    (m.find? key).isSome = true ↔ key ∈ m.keys := by
  obtain ⟨entries⟩ := m
  simp only [find?, keys]
  induction entries with
  | nil => simp
  | cons entry rest ih =>
    obtain ⟨k, v⟩ := entry
    by_cases same : key = k
    · simp [same]
    · have differ : (key == k) = false := by simpa using same
      simp [List.lookup_cons, differ, same, ih]

end KeyedList

end Ferry
