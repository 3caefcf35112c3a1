import Ferry.Text.Ascii
import Ferry.Text.Hex

/-!
# Bytes as printable text

Slot bytes are shown in messages as printable ASCII.  Tab, carriage return, line feed, both
quotes and the backslash have two-character escapes, other bytes outside the printable range are
written as `\x` and two digits, and the rest stand for themselves.
-/

namespace Ferry.Text.Escape

/-- The text of one byte. -/
def byte (b : UInt8) : List Char :=
  if b = 9 then ['\\', 't']
  else if b = 13 then ['\\', 'r']
  else if b = 10 then ['\\', 'n']
  else if b = 39 then ['\\', '\x27']
  else if b = 34 then ['\\', '\x22']
  else if b = 92 then ['\\', '\\']
  else if 32 ≤ b ∧ b ≤ 126 then [Ascii.charOfByte b]
  else '\\' :: 'x' :: Hex.fixed 2 b.toNat

/-- The text of a row of bytes. -/
def bytes (bs : List UInt8) : List Char :=
  bs.flatMap byte

@[simp] theorem bytes_nil : bytes [] = [] := rfl

@[simp] theorem bytes_cons (b : UInt8) (bs : List UInt8) : bytes (b :: bs) = byte b ++ bytes bs :=
  rfl

end Ferry.Text.Escape
