import Ferry.Fault
import Ferry.Text.Ascii

/-!
# Tokens

A token is a handle written as 68 bytes of ASCII: `<xu_object`, three fields, `>`.  A field is
`:0x` and sixteen hexadecimal digits.  Digits are written in lower case and read in either case;
nothing else is optional.

Main statements: every token has 68 bytes (`length_encode`), and bytes over the limit are refused
whatever they hold (`parse_tooLong`).
-/

namespace Ferry.Token

open Ferry.Text

/-- What every token begins with. -/
def opening : List UInt8 :=
  Ascii.bytes ['<', 'x', 'u', '_', 'o', 'b', 'j', 'e', 'c', 't']

/-- What every token ends with. -/
def closing : List UInt8 :=
  Ascii.bytes ['>']

/-- What stands before the digits of a field. -/
def fieldMark : List UInt8 :=
  Ascii.bytes [':', '0', 'x']

/-- The number of digits of a field. -/
def fieldDigits : Nat := 16

/-- Longer bytes are refused unread. -/
def maxLength : Nat := 80

/-! ## Writing -/

/-- A word as a field. -/
def writeField (word : UInt64) : List UInt8 :=
  fieldMark ++ Ascii.bytes (Hex.fixed fieldDigits word.toNat)

/-- A handle as a token. -/
def encode (handle : Handle) : List UInt8 :=
  opening ++ writeField handle.registry ++ writeField handle.slot ++ writeField handle.nonce
    ++ closing

/-! ## Reading -/

/-- The bytes between the delimiters, if both delimiters are there. -/
def body? (bytes : List UInt8) : Option (List UInt8) :=
  match opening.isPrefixOf? bytes with
  | some rest => closing.isSuffixOf? rest
  | none => none

/-- Reads one field and returns the bytes after it.  The mark is looked at first, then the number
of bytes, then the digits. -/
def readField (bytes : List UInt8) : Except Fault (UInt64 × List UInt8) :=
  match fieldMark.isPrefixOf? bytes with
  | none => .error (.malformed .missingFieldMark)
  | some rest =>
    if rest.length < fieldDigits then .error (.malformed .shortField)
    else
      match Hex.value? (Ascii.chars (rest.take fieldDigits)) with
      | none => .error (.malformed .badDigit)
      | some word => .ok (word.toUInt64, rest.drop fieldDigits)

/-- Reads the three fields between the delimiters. -/
def readFields (body : List UInt8) : Except Fault Handle :=
  match readField body with
  | .error fault => .error fault
  | .ok (registry, rest) =>
    match readField rest with
    | .error fault => .error fault
    | .ok (slot, rest) =>
      match readField rest with
      | .error fault => .error fault
      | .ok (nonce, []) => .ok { registry, slot, nonce }
      | .ok (_, _ :: _) => .error (.malformed .trailingBytes)

/-- Reads a token.  Only the form is checked: whether the handle names anything is the registry's
business. -/
def parse (bytes : List UInt8) : Except Fault Handle :=
  if maxLength < bytes.length then .error (.tooLong bytes.length maxLength)
  else
    match body? bytes with
    | none => .error (.malformed .missingDelimiters)
    | some body => readFields body

/-- Whether the token of a handle reads back as the handle. -/
def readsBack (handle : Handle) : Bool :=
  match parse (encode handle) with
  | .ok read => read == handle
  | .error _ => false

@[simp] theorem length_writeField (word : UInt64) : (writeField word).length = 19 := by
  simp [writeField, fieldMark, fieldDigits]

@[simp] theorem length_encode (handle : Handle) : (encode handle).length = 68 := by
  simp [encode, opening, closing]

theorem parse_tooLong {bytes : List UInt8} (long : maxLength < bytes.length) :
    parse bytes = .error (.tooLong bytes.length maxLength) := by
  simp [parse, long]

end Ferry.Token
