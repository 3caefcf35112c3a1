import Ferry.Message
import Ferry.Status.Basic

/-!
# Statuses as text

Success is shown as `OK`.  A failure is shown as its code, its message behind a colon, and each slot
in brackets with its bytes escaped between single quotes.  The diagnostic form shows all fields.
-/

namespace Ferry.Status

/-- One slot in the text of a failure. -/
def slotText (entry : String × Payload) : String :=
  " [" ++ entry.1 ++ "='" ++ entry.2.escaped ++ "']"

/-- The text of a status. -/
def text (status : Status) : String :=
  if status.isOk then "OK"
  else
    status.code.name ++ ": " ++ status.message
      ++ String.join (status.slots.entries.map slotText)

/-- One slot in diagnostic text. -/
def slotDebugText (entry : String × Payload) : String :=
  Text.Quoted.string entry.1 ++ ": " ++ entry.2.debugText

/-- The diagnostic text of a status. -/
def debugText (status : Status) : String :=
  "Status \x7b code: " ++ status.code.label ++ ", message: " ++ Text.Quoted.string status.message
    ++ ", payload: \x7b"
    ++ String.intercalate ", " (status.slots.entries.map slotDebugText)
    ++ "\x7d \x7d"

/-- The message that an exception of a kind gets from a status. -/
def messageFor (strip : Bool) (status : Status) (kind : Kind) : String :=
  Message.compose status.code kind (Message.prepare strip status.message)

/-- The message of the exception made from code and message alone. -/
def plainMessage (strip : Bool) (status : Status) : String :=
  messageFor strip status (Kind.ofCode status.code)

end Ferry.Status
