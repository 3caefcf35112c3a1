/-!
# Trimming blanks

A blank is one of the five ASCII characters space, tab, line feed, form feed and carriage return.
Trimming removes the blanks at both ends and nothing between.
-/

namespace Ferry.Text.Trim

/-- The five blanks.  Vertical tab and blanks outside ASCII are not among them. -/
def isBlank (c : Char) : Bool :=
  c == ' ' || c == '\t' || c == '\n' || c == '\x0c' || c == '\r'

/-- The characters without the blanks in front. -/
def front (text : List Char) : List Char :=
  text.dropWhile isBlank

/-- The characters without the blanks at the end. -/
def back (text : List Char) : List Char :=
  (text.reverse.dropWhile isBlank).reverse

/-- The characters without the blanks at either end. -/
def both (text : List Char) : List Char :=
  back (front text)

/-- The string without the blanks at either end. -/
def string (text : String) : String :=
  String.ofList (both text.toList)

end Ferry.Text.Trim
