import Ferry.Exception.Graph

/-!
# Drafts of exceptions

A draft says how to make an exception out of given ones and new ones.  It is what a handler answers
with: a handler describes the exception to raise and never edits the graph itself, so the counts of
holders stay right whatever the handler does.
-/

namespace Ferry

/-- How to make an exception from the exceptions that `α` names. -/
inductive Draft (α : Type) where
  /-- A given exception itself. -/
  | given (source : α)
  /-- A new exception. -/
  | fresh (kind : Kind) (message : String)
  | setCause (outer cause : Draft α)
  | setContext (outer context : Draft α)
  | raiseFrom (outer cause : Draft α)
  | addFrame (outer : Draft α) (frame : Frame)

namespace Draft

variable {α : Type}

/-- The exceptions that a draft names, from left to right. -/
def names : Draft α → List α
  | given source => [source]
  | fresh _ _ => []
  | setCause outer other | setContext outer other | raiseFrom outer other =>
    outer.names ++ other.names
  | addFrame outer _ => outer.names

/-- Makes the exception, with a share for the caller.  The given exceptions keep their shares. -/
def build (g : ExceptionGraph) (refs : α → ExceptionRef) : Draft α → ExceptionGraph × ExceptionRef
  | given source => (g.retain (refs source), refs source)
  | fresh kind message => ExceptionGraph.create g kind message
  | setCause outer cause =>
    let made := outer.build g refs
    let linked := cause.build made.1 refs
    ExceptionGraph.setCause linked.1 made.2 linked.2
  | setContext outer context =>
    let made := outer.build g refs
    let linked := context.build made.1 refs
    ExceptionGraph.setContext linked.1 made.2 linked.2
  | raiseFrom outer cause =>
    let made := outer.build g refs
    let linked := cause.build made.1 refs
    ExceptionGraph.raiseFrom linked.1 made.2 linked.2
  | addFrame outer frame =>
    let made := outer.build g refs
    ExceptionGraph.addFrame made.1 made.2 frame

end Draft

end Ferry
