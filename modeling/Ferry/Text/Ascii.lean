/-!
# ASCII text as bytes

Tokens are byte strings written in ASCII.  A list of ASCII characters is turned into bytes one
character at a time; a byte is turned into the character of the same number, which covers the
first 256 characters.
-/

namespace Ferry.Text.Ascii

/-- The bytes of ASCII characters. -/
def bytes (text : List Char) : List UInt8 :=
  text.map fun c => c.toNat.toUInt8

/-- The character with the number of a byte. -/
def charOfByte (b : UInt8) : Char :=
  Char.ofNat b.toNat

/-- Each byte read as the character of the same number. -/
def chars (bytes : List UInt8) : List Char :=
  bytes.map charOfByte

@[simp] theorem length_bytes (text : List Char) : (bytes text).length = text.length :=
  List.length_map _

@[simp] theorem length_chars (bytes : List UInt8) : (chars bytes).length = bytes.length :=
  List.length_map _

end Ferry.Text.Ascii
