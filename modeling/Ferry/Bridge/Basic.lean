import Ferry.Bridge.HandlerTable

/-!
# Bridges

A bridge carries exceptions through statuses.  It works over one registry, with a table of handlers
and two settings.  Two slots are well known: one holds an exception to raise as it is, the other the
cause of an exception made from the status.  Every bridge starts with the handlers for these two.
-/

namespace Ferry

/-- The well-known slots for exceptions. -/
inductive ExceptionSlot where
  /-- Holds an exception to raise as it is. -/
  | raw
  /-- Holds the cause of an exception made from the status. -/
  | cause
  deriving DecidableEq

namespace ExceptionSlot

/-- The key of a well-known slot. -/
def key : ExceptionSlot → String
  | raw => "xu.bridge.exception"
  | cause => "xu.bridge.exception_cause"

/-- The well-known slot with a key. -/
def ofKey? (text : String) : Option ExceptionSlot :=
  [raw, cause].find? fun slot => slot.key == text

theorem ofKey?_key (slot : ExceptionSlot) : ofKey? slot.key = some slot := by
  cases slot <;> decide

end ExceptionSlot

/-- What to do when a handler cannot build its exception. -/
inductive Unresolved where
  /-- Report the fault. -/
  | fail
  /-- Make the exception from code and message alone. -/
  | fallback
  deriving DecidableEq, Inhabited

/-- The settings of a bridge. -/
structure Config where
  onUnresolved : Unresolved := .fail
  /-- Whether blanks at the ends of a status's message are removed. -/
  strip : Bool := true
  deriving DecidableEq, Inhabited

/-- Carries exceptions through statuses, over one registry. -/
structure Bridge where
  registry : Nat
  table : HandlerTable
  config : Config

namespace Bridge

/-- The table that every bridge starts with. -/
def builtin : HandlerTable :=
  ⟨⟨[(ExceptionSlot.raw.key, Handler.raw), (ExceptionSlot.cause.key, Handler.cause)]⟩⟩

/-- A bridge over a registry. -/
def new (registry : Nat) (config : Config) : Bridge :=
  { registry, table := builtin, config }

/-- Adds a handler. -/
def register (b : Bridge) (key : String) (handler : Handler) : Except Fault Bridge :=
  (b.table.register key handler).map fun table => { b with table }

@[simp] theorem get?_builtin (slot : ExceptionSlot) :
    builtin.get? slot.key = some (match slot with | .raw => .raw | .cause => .cause) := by
  cases slot <;> rfl

end Bridge

end Ferry
