import Ferry.Pool
import Ferry.Text.Escape
import Ferry.Text.Quoted
import Ferry.Text.Utf8

/-!
# Payloads

A payload is a row of bytes and, optionally, an owner: a shared value that lives as long as some
payload holds it.  A payload with an owner holds one share of it.  Two payloads are alike when their
bytes are equal, whatever their owners.
-/

namespace Ferry

/-- Names one owner. -/
abbrev OwnerRef := Ref .owner

/-- Bytes and what they keep alive. -/
structure Payload where
  bytes : List UInt8
  owner : Option OwnerRef := none
  deriving DecidableEq, Inhabited

namespace Payload

/-- Bytes without an owner. -/
def ofBytes (bytes : List UInt8) : Payload :=
  { bytes }

/-- The UTF-8 bytes of a text, without an owner. -/
def ofText (text : String) : Payload :=
  ofBytes (Text.Utf8.bytes text)

/-- The same bytes without an owner. -/
def detached (payload : Payload) : Payload :=
  ofBytes payload.bytes

/-- Whether the payload has an owner. -/
def isOwned (payload : Payload) : Bool :=
  payload.owner.isSome

/-- Whether two payloads have the same bytes. -/
def alike (a b : Payload) : Bool :=
  a.bytes == b.bytes

/-- The bytes as printable text. -/
def escaped (payload : Payload) : String :=
  String.ofList (Text.Escape.bytes payload.bytes)

/-- The word for a truth value in diagnostic text. -/
def boolText (b : Bool) : String :=
  if b then "true" else "false"

/-- The diagnostic text: the escaped bytes between quotes, and whether there is an owner. -/
def debugText (payload : Payload) : String :=
  "Payload \x7b bytes: " ++ Text.Quoted.string payload.escaped ++ ", owned: "
    ++ boolText payload.isOwned ++ " \x7d"

@[simp] theorem bytes_detached (payload : Payload) : payload.detached.bytes = payload.bytes := rfl

@[simp] theorem owner_detached (payload : Payload) : payload.detached.owner = none := rfl

@[simp] theorem alike_iff (a b : Payload) : a.alike b = true ↔ a.bytes = b.bytes := by
  simp [alike]

end Payload

end Ferry
