import Ferry.Handle
import Ferry.ObjectType
import Ferry.Text.Quoted

/-!
# Faults

A fault says why a request was refused: bytes that are no token, a handle that names no live
entry, a payload that does not own what it names, an object of the wrong type, or a key that is
taken.  Faults are causes; `Fault.message` holds all of their wording.
-/

namespace Ferry

/-- How bytes of admissible length fail to be a token. -/
inductive TokenFlaw where
  | missingDelimiters
  | missingFieldMark
  | shortField
  | badDigit
  | trailingBytes
  deriving DecidableEq

/-- The wording of a flaw. -/
def TokenFlaw.message : TokenFlaw → String
  | missingDelimiters => "missing <xu_object:...> delimiters"
  | missingFieldMark => "expected ':0x' before a field"
  | shortField => "field shorter than 16 hex digits"
  | badDigit => "non-hex digit in field"
  | trailingBytes => "unexpected bytes after the last field"

/-- Why a request was refused. -/
inductive Fault where
  /-- The bytes are longer than any token may be. -/
  | tooLong (length limit : Nat)
  /-- The bytes do not follow the grammar of tokens. -/
  | malformed (flaw : TokenFlaw)
  /-- The handle belongs to another registry. -/
  | foreignRegistry (expected found : UInt64)
  /-- The handle names no live entry. -/
  | stale (slot nonce : UInt64)
  /-- The payload does not own the entry that its bytes name. -/
  | detached
  /-- The object is not of the type asked for. -/
  | typeMismatch (expected : ObjectType)
  /-- Another handler holds the key. -/
  | alreadyRegistered (key : String)
  deriving DecidableEq

namespace Fault

/-- The wording of a fault. -/
def message : Fault → String
  | tooLong length limit =>
    "invalid <xu_object> token: " ++ Nat.repr length ++ " bytes exceeds the " ++ Nat.repr limit
      ++ "-byte limit"
  | malformed flaw => "invalid <xu_object> token: " ++ flaw.message
  | foreignRegistry expected found =>
    "handle was minted by registry " ++ Handle.identityText found ++ ", not by registry "
      ++ Handle.identityText expected
  | stale slot nonce =>
    "no live object at slot " ++ Nat.repr slot.toNat ++ " with nonce " ++ Handle.nonceText nonce
  | detached => "token bytes are not owned by the payload slot that carries them"
  | typeMismatch expected => "registered object is not a " ++ expected.name
  | alreadyRegistered key =>
    "status handler for payload key " ++ Text.Quoted.string key ++ " is already registered"

end Fault

end Ferry
