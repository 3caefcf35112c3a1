import Ferry.Exception.Graph

/-!
# Outlines of chains

An outline records the kinds and messages of a "raised from" chain, innermost first, before any
exception is made.  Each link is raised from the link before it.  An outline can be taken from an
existing exception, extended link by link, and built into exceptions.
-/

namespace Ferry

/-- One link of an outline. -/
structure OutlineLink where
  kind : Kind
  message : String
  /-- The place of the link that this one is raised from. -/
  cause : Option Nat
  deriving DecidableEq, Inhabited

/-- A chain to be built, innermost link first. -/
structure Outline where
  links : Array OutlineLink := #[]
  deriving DecidableEq, Inhabited

namespace Outline

/-- The outline without links. -/
def empty : Outline :=
  {}

/-- The number of links. -/
def size (outline : Outline) : Nat :=
  outline.links.size

/-- Adds a link raised from the last one. -/
def push (outline : Outline) (kind : Kind) (message : String) : Outline :=
  let cause := if outline.links.size = 0 then none else some (outline.links.size - 1)
  ⟨outline.links.push { kind, message, cause }⟩

/-- Adds the same link several times. -/
def pushMany (kind : Kind) (message : String) : (count : Nat) → Outline → Outline
  | 0, outline => outline
  | count + 1, outline => pushMany kind message count (outline.push kind message)

/-- Adds the link that stands for an exception. -/
def pushNode (g : ExceptionGraph) (outline : Outline) (e : ExceptionRef) : Outline :=
  match g.content? e with
  | some node => outline.push node.kind node.message
  | none => outline

/-- The outline of an existing exception's chain. -/
def ofException (g : ExceptionGraph) (e : ExceptionRef) : Outline :=
  (ExceptionGraph.chain g e).reverse.foldl (pushNode g) empty

/-- Makes the exception of one link, given those of the links before it. -/
def buildLink (state : ExceptionGraph × Array ExceptionRef) (link : OutlineLink) :
    ExceptionGraph × Array ExceptionRef :=
  let made := ExceptionGraph.create state.1 link.kind link.message
  match link.cause.bind fun place => state.2[place]? with
  | none => (made.1, state.2.push made.2)
  | some cause =>
    let raised := ExceptionGraph.raiseFrom (made.1.retain cause) made.2 cause
    (raised.1, state.2.push raised.2)

/-- Makes the exceptions of all links and returns the outermost, which holds the others. -/
def build (g : ExceptionGraph) (outline : Outline) : ExceptionGraph × Option ExceptionRef :=
  -- Every link has a share of its own until all are built.
  let built := outline.links.foldl buildLink (g, #[])
  (ExceptionGraph.dropAll built.1 built.2.pop.toList, built.2.back?)

end Outline

end Ferry
