import Ferry.Bridge.Handler

/-!
# Handler tables

A handler table binds keys to handlers.  A key is bound once and for all.

Main statements: registering fails exactly on a bound key (`register_eq_error_iff`) and otherwise
binds that key and no other (`get?_register_self`, `get?_register_of_ne`).
-/

namespace Ferry

/-- Handlers by key. -/
structure HandlerTable where
  handlers : KeyedList Handler := {}
  deriving Inhabited

namespace HandlerTable

/-- The handler of a key. -/
def get? (table : HandlerTable) (key : String) : Option Handler :=
  table.handlers.find? key

/-- Whether a key has a handler. -/
def contains (table : HandlerTable) (key : String) : Bool :=
  table.handlers.contains key

/-- The keys in the order of their bytes. -/
def keys (table : HandlerTable) : List String :=
  Text.Utf8.sort table.handlers.keys

/-- Binds a key that is not bound yet. -/
def register (table : HandlerTable) (key : String) (handler : Handler) :
    Except Fault HandlerTable :=
  if table.contains key then .error (.alreadyRegistered key)
  else .ok ⟨table.handlers.insert key handler⟩

theorem register_eq_error_iff (table : HandlerTable) (key : String) (handler : Handler)
    (fault : Fault) :
    table.register key handler = .error fault ↔
      table.contains key = true ∧ fault = .alreadyRegistered key := by
  unfold register
  by_cases bound : table.contains key = true
  · simp only [bound, if_true, Except.error.injEq, true_and]
    exact eq_comm
  · simp [bound]

theorem get?_register_self {table after : HandlerTable} {key : String} {handler : Handler}
    (registered : table.register key handler = .ok after) : after.get? key = some handler := by
  unfold register at registered
  split at registered
  · cases registered
  · cases registered
    exact KeyedList.find?_insert_self _ _ _

theorem get?_register_of_ne {table after : HandlerTable} {key other : String} {handler : Handler}
    (registered : table.register key handler = .ok after) (ne : other ≠ key) :
    after.get? other = table.get? other := by
  unfold register at registered
  split at registered
  · cases registered
  · cases registered
    exact KeyedList.find?_insert_of_ne _ _ ne

end HandlerTable

end Ferry
