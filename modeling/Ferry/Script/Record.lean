import Ferry.Bridge.Hop
import Ferry.Exception.Survey
import Ferry.Exception.Text
import Ferry.Outline

/-!
# Records

A script answers with records: plain values that show what a variable holds.  A record is taken at
one moment and does not change when what it shows does.
-/

namespace Ferry.Script

/-! ## Statuses and payloads -/

/-- A status as shown: its fields and its text. -/
structure StatusRecord where
  code : Code
  message : String
  /-- Key, bytes and whether there is an owner, slot by slot. -/
  slots : List (String × List UInt8 × Bool)
  text : String
  deriving DecidableEq

/-- The record of a status. -/
def StatusRecord.of (status : Status) : StatusRecord where
  code := status.code
  message := status.message
  slots := status.slots.entries.map fun entry => (entry.1, entry.2.bytes, entry.2.isOwned)
  text := status.text

/-- A payload as shown. -/
structure PayloadRecord where
  bytes : List UInt8
  owned : Bool
  debug : String
  deriving DecidableEq

/-- The record of a payload. -/
def PayloadRecord.of (payload : Payload) : PayloadRecord where
  bytes := payload.bytes
  owned := payload.isOwned
  debug := payload.debugText

/-! ## Objects -/

/-- The content of an object as shown.  A status is shown by its text. -/
inductive Shown where
  | number (value : UInt64)
  | text (value : String)
  | bytes (value : List UInt8)
  | status (text : String)
  | other
  deriving DecidableEq

/-- How an item is shown. -/
def Shown.ofItem : Item → Shown
  | .number value => .number value
  | .text value => .text value
  | .bytes value => .bytes value
  | .status value => .status value.text

/-- How an object is shown. -/
def Shown.ofObject (h : Holdings) : Object → Shown
  | .item ref =>
    match h.items.content? ref with
    | some item => .ofItem item
    | none => .other
  | .exception _ => .other

/-- An object that was found: its content and the variable it belongs to. -/
structure ObjectRecord where
  shown : Shown
  name : Option String
  deriving DecidableEq

/-! ## Exceptions -/

/-- Where a link of a surveyed exception leads. -/
inductive LinkTarget where
  /-- To the exception at a place of the survey. -/
  | listed (place : Nat)
  /-- To an exception beyond the survey's limit. -/
  | unlisted
  deriving DecidableEq

/-- One exception of a survey. -/
structure NodeRecord where
  kind : Kind
  message : String
  cause : Option LinkTarget
  context : Option LinkTarget
  frames : List String
  /-- The variables that hold the exception, in the order of their bytes. -/
  names : List String
  deriving DecidableEq

/-- An exception as shown: its text, the length of its chain and a survey of what it links to. -/
structure ExceptionRecord where
  text : String
  depth : Nat
  nodes : List NodeRecord
  deriving DecidableEq

/-- The number of exceptions that a record lists. -/
def surveyLimit : Nat := 40

/-- The place of a link's target in a survey. -/
def LinkTarget.of (listed : List ExceptionRef) (e : ExceptionRef) : LinkTarget :=
  match listed.idxOf? e with
  | some place => .listed place
  | none => .unlisted

/-- The record of one exception of a survey. -/
def NodeRecord.of (listed : List ExceptionRef) (names : ExceptionRef → List String)
    (e : ExceptionRef) (node : Node) : NodeRecord where
  kind := node.kind
  message := node.message
  cause := node.cause.map (LinkTarget.of listed)
  context := node.context.map (LinkTarget.of listed)
  frames := node.frames.map Frame.text
  names := names e

/-- The record of an exception, given the names of the variables that hold each. -/
def ExceptionRecord.of (g : ExceptionGraph) (names : ExceptionRef → List String)
    (e : ExceptionRef) : ExceptionRecord :=
  let listed := ExceptionGraph.survey g surveyLimit e
  { text := ExceptionGraph.text g e
    depth := ExceptionGraph.depth g e
    nodes := listed.filterMap fun ref => (g.content? ref).map (NodeRecord.of listed names ref) }

/-- What raising a status came to, as shown. -/
inductive RaisedRecord where
  | nothing
  /-- An exception, with its text and the text of the one it was raised from. -/
  | exception (record : ExceptionRecord) (text : String) (origin : Option String)
  | fault (fault : Fault)
  deriving DecidableEq

/-! ## Outlines -/

/-- An outline as shown: its size and its first links. -/
structure OutlineRecord where
  size : Nat
  links : List OutlineLink
  deriving DecidableEq

/-- The number of links that a record lists. -/
def linkLimit : Nat := 40

/-- The record of an outline. -/
def OutlineRecord.of (outline : Outline) : OutlineRecord where
  size := outline.size
  links := outline.links.toList.take linkLimit

end Ferry.Script
