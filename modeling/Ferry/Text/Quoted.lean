import Ferry.Text.Hex

/-!
# Quoted text

Diagnostic text shows strings between double quotes.  Tab, carriage return, line feed, the null
character, the double quote and the backslash have two-character escapes; the other ASCII control
characters are written as `\u` with the shortest digits of their number in braces.  All other
characters, the single quote among them, stand for themselves.

This is the whole of it for ASCII.  Beyond ASCII there are characters that do not print, or that
extend the one before them, and diagnostic text escapes these as it does control characters.  The
tables that tell them from others are left out here, so they stand for themselves, too.
-/

namespace Ferry.Text.Quoted

/-- The text of one character between quotes. -/
def char (c : Char) : List Char :=
  if c = '\t' then ['\\', 't']
  else if c = '\r' then ['\\', 'r']
  else if c = '\n' then ['\\', 'n']
  else if c = '\x00' then ['\\', '0']
  else if c = '\x22' then ['\\', '\x22']
  else if c = '\\' then ['\\', '\\']
  else if c.toNat < 32 ∨ c.toNat = 127 then
    ['\\', 'u', '\x7b'] ++ Hex.shortest c.toNat ++ ['\x7d']
  else [c]

/-- A row of characters between double quotes. -/
def chars (text : List Char) : List Char :=
  '\x22' :: (text.flatMap char ++ ['\x22'])

/-- A string between double quotes. -/
def string (text : String) : String :=
  String.ofList (chars text.toList)

end Ferry.Text.Quoted
