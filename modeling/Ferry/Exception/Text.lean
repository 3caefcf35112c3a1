import Ferry.Exception.Graph
import Ferry.Text.Quoted

/-!
# Exceptions as text

An exception is shown as its kind's name with its message behind a colon, and a frame as place and
function.  The diagnostic form lists kind, message, frames and the texts of the rest of the chain;
an empty list is left out.
-/

namespace Ferry

namespace Frame

/-- A frame in a listing. -/
def text (frame : Frame) : String :=
  frame.file ++ ":" ++ Nat.repr frame.line ++ " in " ++ frame.function

/-- A frame in diagnostic text. -/
def debugText (frame : Frame) : String :=
  "Frame \x7b function: " ++ Text.Quoted.string frame.function ++ ", file: "
    ++ Text.Quoted.string frame.file ++ ", line: " ++ Nat.repr frame.line ++ " \x7d"

end Frame

/-- The kind's name, and the message behind a colon unless it is empty. -/
def Node.text (node : Node) : String :=
  if node.message = "" then node.kind.name else node.kind.name ++ ": " ++ node.message

namespace ExceptionGraph

/-- The text of an exception. -/
def text (g : ExceptionGraph) (e : ExceptionRef) : String :=
  match g.content? e with
  | some node => node.text
  | none => ""

/-- The text of the source of an exception. -/
def sourceText? (g : ExceptionGraph) (e : ExceptionRef) : Option String :=
  (source? g e).map (text g)

/-- The texts of the first exceptions of a chain. -/
def chainTexts (g : ExceptionGraph) (limit : Nat) (e : ExceptionRef) : List String :=
  ((chain g e).take limit).map (text g)

/-- Texts between square brackets with commas between them. -/
def bracketed (items : List String) : String :=
  "[" ++ String.intercalate ", " items ++ "]"

/-- A named list in diagnostic text; nothing if it is empty. -/
def debugField (name : String) (items : List String) : String :=
  if items.isEmpty then "" else ", " ++ name ++ ": " ++ bracketed items

/-- The diagnostic text of an exception. -/
def debugText (g : ExceptionGraph) (e : ExceptionRef) : String :=
  match g.content? e with
  | none => ""
  | some node =>
    "Exception \x7b kind: " ++ node.kind.label ++ ", message: " ++ Text.Quoted.string node.message
      ++ debugField "traceback" (node.frames.map Frame.debugText)
      ++ debugField "chain" (((chain g e).drop 1).map fun link => Text.Quoted.string (text g link))
      ++ " \x7d"

end ExceptionGraph

end Ferry
