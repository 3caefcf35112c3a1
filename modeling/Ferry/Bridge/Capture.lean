import Ferry.Bridge.Basic

/-!
# Capturing exceptions

Capturing stores an exception in the bridge's registry and names it from a well-known slot of a new
status.
-/

namespace Ferry.Bridge

/-- A status of a code and message with an exception in a slot.  Takes a share of the exception.
Without an exception nothing failed; and success carries no exception. -/
def carry (b : Bridge) (h : Holdings) (code : Code) (message : String)
    (slot : ExceptionSlot) : Option ExceptionRef → Holdings × Status
  | none => (h, Status.ok)
  | some e =>
    if code.isOk then (h.dropException e, Status.ok)
    else h.write b.registry (Status.new code message) slot.key (some (.exception e))

/-- A status that raises an exception as it is. -/
def carryRaw (b : Bridge) (h : Holdings) (code : Code) (message : String)
    (exception : Option ExceptionRef) : Holdings × Status :=
  b.carry h code message .raw exception

/-- A status that raises an exception made from code and message, caused by the given one. -/
def carryCause (b : Bridge) (h : Holdings) (code : Code) (message : String)
    (exception : Option ExceptionRef) : Holdings × Status :=
  b.carry h code message .cause exception

/-- A status that raises an exception as it is, with the code of its kind and its message.  The
caller keeps its share. -/
def capture (b : Bridge) (h : Holdings) (e : ExceptionRef) : Holdings × Status :=
  match h.exceptions.content? e with
  | none => (h, Status.ok)
  | some node => b.carry (h.retainException e) node.kind.code node.message .raw (some e)

end Ferry.Bridge
