import Ferry.Kind
import Ferry.Text.Trim

/-!
# Messages of exceptions made from statuses

A status holds a code and a text, an exception a kind and a message.  When an exception is made
from a status, its message is the text with the code in brackets in front, unless the code is
native to the kind and so already said by it.
-/

namespace Ferry.Message

/-- The code in brackets, or nothing for a code that is native to the kind. -/
def tag (code : Code) (kind : Kind) : String :=
  if kind.nativeCode? = some code then "" else "[" ++ code.name ++ "]"

/-- Two parts with a space between them; an empty part takes its space with it. -/
def join (first second : String) : String :=
  if first = "" then second
  else if second = "" then first
  else first ++ " " ++ second

/-- The message of an exception of a kind that is made from a code and a text. -/
def compose (code : Code) (kind : Kind) (text : String) : String :=
  join (tag code kind) text

/-- The text a status contributes to a message, with blanks at its ends removed on request. -/
def prepare (strip : Bool) (text : String) : String :=
  if strip then Text.Trim.string text else text

theorem tag_of_native {code : Code} {kind : Kind} (native : kind.nativeCode? = some code) :
    tag code kind = "" := by
  simp [tag, native]

@[simp] theorem join_empty_left (text : String) : join "" text = text := by
  simp [join]

@[simp] theorem join_empty_right (text : String) : join text "" = text := by
  unfold join
  split <;> simp_all

end Ferry.Message
