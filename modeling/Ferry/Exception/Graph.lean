import Ferry.Kind
import Ferry.Pool

/-!
# Exceptions as a shared graph

An exception has a kind, a message, the frames of its traceback, and up to two links to other
exceptions: its cause and its context.  Exceptions are shared by variables, by the links of other
exceptions and by registry entries, so they live in a pool that counts their holders.

An exception may be edited only while it is under construction, that is, while it has one holder.
The builders therefore work on `own`: a sole reference is edited in place, a shared one gives way to
a copy.  Letting go of an exception lets go of its links in turn, along a work list and not by
recursion along the chain.

Throughout, *a share* is one unit of a count.  A function that takes a share uses it up; a reference
it returns carries a share for the caller.

## Sections

1. Nodes and the graph.
2. Letting go.
3. Builders.
4. The chain and the source.
-/

namespace Ferry

/-! ## §1 Nodes and the graph -/

/-- One entry of an exception's traceback. -/
structure Frame where
  function : String
  file : String
  line : Nat
  deriving DecidableEq, Inhabited

/-- Names one exception. -/
abbrev ExceptionRef := Ref .exception

/-- The content of an exception. -/
structure Node where
  kind : Kind
  message : String
  cause : Option ExceptionRef := none
  context : Option ExceptionRef := none
  frames : List Frame := []
  deriving DecidableEq, Inhabited

namespace Node

/-- The exceptions that a node refers to, its cause first. -/
def links (node : Node) : List ExceptionRef :=
  node.cause.toList ++ node.context.toList

/-- The number of references that a node holds. -/
def linkCount (node : Node) : Nat :=
  node.links.length

/-- The exception that a node was raised from: its cause or, lacking one, its context. -/
def origin (node : Node) : Option ExceptionRef :=
  node.cause.or node.context

end Node

/-- All exceptions, each with the number of its holders. -/
abbrev ExceptionGraph := Pool .exception Node

namespace ExceptionGraph

/-- An exception that is alive. -/
structure Live (g : ExceptionGraph) where
  ref : ExceptionRef
  holders_pos : 0 < g.holders ref

/-- An exception, if it is alive. -/
def live? (g : ExceptionGraph) (e : ExceptionRef) : Option g.Live :=
  if holders_pos : 0 < g.holders e then some ⟨e, holders_pos⟩ else none

/-- Makes an exception without links or frames. -/
def create (g : ExceptionGraph) (kind : Kind) (message : String) :
    ExceptionGraph × ExceptionRef :=
  g.insert { kind, message }

/-! ## §2 Letting go -/

/-- The references that go with a departing node. -/
def departing : Option Node → List ExceptionRef
  | none => []
  | some node => node.links

/-- What departs weighs as much as the references that go with it. -/
theorem length_departing (gone : Option Node) :
    (departing gone).length = (gone.map Node.linkCount).getD 0 := by
  cases gone <;> rfl

/-- Gives up one share for each pending reference.  When the last share of a node goes, the node
goes and its links become pending. -/
def dropAll (g : ExceptionGraph) (pending : List ExceptionRef) : ExceptionGraph :=
  match pending with
  | [] => g
  | e :: rest =>
    let released := g.release e
    dropAll released.1 (departing released.2 ++ rest)
termination_by g.weight Node.linkCount + pending.length
decreasing_by
  have balance := Pool.weight_release Node.linkCount g e
  have moved := length_departing (g.release e).2
  simp only [List.length_append, List.length_cons]
  omega

/-- Gives up one share of an exception. -/
def drop (g : ExceptionGraph) (e : ExceptionRef) : ExceptionGraph :=
  dropAll g [e]

@[simp] theorem dropAll_nil (g : ExceptionGraph) : dropAll g [] = g := by
  rw [dropAll]

theorem dropAll_cons (g : ExceptionGraph) (e : ExceptionRef) (rest : List ExceptionRef) :
    dropAll g (e :: rest) = dropAll (g.release e).1 (departing (g.release e).2 ++ rest) := by
  rw [dropAll]

/-! ## §3 Builders -/

/-- Adds one share to each reference. -/
def retainAll (g : ExceptionGraph) (refs : List ExceptionRef) : ExceptionGraph :=
  refs.foldl Pool.retain g

/-- Turns a share of an exception into a sole reference to an exception of the same content: the
exception itself if the share is its only one, and a copy otherwise. -/
def own (g : ExceptionGraph) (e : ExceptionRef) : ExceptionGraph × ExceptionRef :=
  match g.cell? e with
  | none => (g, e)
  | some cell =>
    if cell.holders ≤ 1 then (g, e)
    else
      -- The copy has shares of its own in what it links to.
      let copied := (retainAll g cell.content.links).insert cell.content
      ((copied.1.release e).1, copied.2)

/-- Sets the cause.  Takes a share of the exception and one of the cause. -/
def setCause (g : ExceptionGraph) (e cause : ExceptionRef) : ExceptionGraph × ExceptionRef :=
  let owned := own g e
  let replaced := (owned.1.content? owned.2).bind Node.cause
  let edited := owned.1.edit owned.2 fun node => { node with cause := some cause }
  (dropAll edited replaced.toList, owned.2)

/-- Sets the context.  Takes a share of the exception and one of the context. -/
def setContext (g : ExceptionGraph) (e context : ExceptionRef) : ExceptionGraph × ExceptionRef :=
  let owned := own g e
  let replaced := (owned.1.content? owned.2).bind Node.context
  let edited := owned.1.edit owned.2 fun node => { node with context := some context }
  (dropAll edited replaced.toList, owned.2)

/-- Marks an exception as raised from another: sets both links.  Takes a share of each. -/
def raiseFrom (g : ExceptionGraph) (e cause : ExceptionRef) : ExceptionGraph × ExceptionRef :=
  -- One share of the other exception goes into each link.
  let caused := setCause (g.retain cause) e cause
  setContext caused.1 caused.2 cause

/-- Adds a frame at the end of the traceback.  Takes a share of the exception. -/
def addFrame (g : ExceptionGraph) (e : ExceptionRef) (frame : Frame) :
    ExceptionGraph × ExceptionRef :=
  let owned := own g e
  (owned.1.edit owned.2 fun node => { node with frames := node.frames ++ [frame] }, owned.2)

/-! ## §4 The chain and the source -/

/-- The exception that another was raised from. -/
def origin? (g : ExceptionGraph) (e : ExceptionRef) : Option ExceptionRef :=
  (g.content? e).bind Node.origin

/-- At most `limit` exceptions: one, the one it was raised from, and so on. -/
def chainUpTo (g : ExceptionGraph) : (limit : Nat) → ExceptionRef → List ExceptionRef
  | 0, _ => []
  | limit + 1, e =>
    e :: match origin? g e with
      | none => []
      | some origin => chainUpTo g limit origin

/-- An exception, the one it was raised from, and so on to the innermost.  Links form no cycle, so
the number of cells bounds the length. -/
def chain (g : ExceptionGraph) (e : ExceptionRef) : List ExceptionRef :=
  chainUpTo g g.cells.size e

/-- The number of exceptions in the chain. -/
def depth (g : ExceptionGraph) (e : ExceptionRef) : Nat :=
  (chain g e).length

/-- What an exception reports as its source: its cause, and its context for lack of a cause. -/
def source? (g : ExceptionGraph) (e : ExceptionRef) : Option ExceptionRef :=
  match g.content? e with
  | none => none
  | some node =>
    match node.cause with
    | some cause => some cause
    | none => node.context

/-- The chain goes from each exception to its source. -/
theorem origin?_eq_source? (g : ExceptionGraph) (e : ExceptionRef) : origin? g e = source? g e := by
  unfold origin? source?
  cases g.content? e with
  | none => rfl
  | some node => cases hcause : node.cause <;> simp [Node.origin, hcause]

end ExceptionGraph

end Ferry
