import Ferry.Exception.Graph

/-!
# Letting go of an exception, call by call

`ExceptionGraph.drop` says what letting go of an exception comes to.  This module says how it is
done, one step at a time.

Whenever the last share of a node is given up, a call begins that cleans the node up.  Calls nest:
what a call gives up may begin a call of its own.  If nothing were done about it, a chain of
exceptions would nest as deep as it is long, since at the end of its call a node gives up the links
that it still has.  So a call takes the links from the node first, and works them off from a stack.
A node that goes on the way is stripped of its links, which are put on the stack, before its own
call begins.
-/

namespace Ferry

/-- The node without its links. -/
def Node.stripped (node : Node) : Node :=
  { node with cause := none, context := none }

@[simp] theorem Node.links_stripped (node : Node) : node.stripped.links = [] := rfl

namespace ExceptionGraph

/-- What is left to do in a call that cleans up a node. -/
inductive Activation where
  /-- The call begins with the node as it stands. -/
  | begun (node : Node)
  /-- The call works off references, the latest first, while the node has what it was left with. -/
  | unlinking (node : Node) (pending : List ExceptionRef)
  /-- The call is done, and the links that the node was left with are given up, in order. -/
  | ending (links : List ExceptionRef)
  deriving DecidableEq

/-- The state of letting go. -/
structure Unlinking where
  graph : ExceptionGraph
  /-- The calls that have begun and not ended, the innermost first. -/
  calls : List Activation := []
  /-- The nodes that went, the latest first. -/
  gone : List ExceptionRef := []
  deriving DecidableEq

namespace Unlinking

/-- Gives up a share.  The last one takes the node with it, and a call begins for the node. -/
def giveUp (s : Unlinking) (e : ExceptionRef) : Unlinking :=
  let released := s.graph.release e
  match released.2 with
  | none => { s with graph := released.1 }
  | some node => { graph := released.1, calls := .begun node :: s.calls, gone := e :: s.gone }

/-- Takes a reference off the stack of a call.  If its share is the last one, the links of the node
are put on the stack, the last of them uppermost, and a call begins for what is left of the node. -/
def workOff (s : Unlinking) (node : Node) (e : ExceptionRef) (pending : List ExceptionRef)
    (outer : List Activation) : Unlinking :=
  let released := s.graph.release e
  match released.2 with
  | none => { s with graph := released.1, calls := .unlinking node pending :: outer }
  | some found =>
    { graph := released.1
      calls := .begun found.stripped :: .unlinking node (found.links.reverse ++ pending) :: outer
      gone := e :: s.gone }

section

variable {s : Unlinking} {e : ExceptionRef} {found : Node}

theorem giveUp_of_shared (hshared : (s.graph.release e).2 = none) :
    s.giveUp e = { s with graph := (s.graph.release e).1 } := by
  simp only [giveUp, hshared]

theorem giveUp_of_last (hlast : (s.graph.release e).2 = some found) :
    s.giveUp e = ⟨(s.graph.release e).1, .begun found :: s.calls, e :: s.gone⟩ := by
  simp only [giveUp, hlast]

variable (node : Node) (pending : List ExceptionRef) (outer : List Activation)

theorem workOff_of_shared (hshared : (s.graph.release e).2 = none) :
    s.workOff node e pending outer
      = ⟨(s.graph.release e).1, .unlinking node pending :: outer, s.gone⟩ := by
  simp only [workOff, hshared]

theorem workOff_of_last (hlast : (s.graph.release e).2 = some found) :
    s.workOff node e pending outer
      = ⟨(s.graph.release e).1, .begun found.stripped
          :: .unlinking node (found.links.reverse ++ pending) :: outer, e :: s.gone⟩ := by
  simp only [workOff, hlast]

end

/-- One step of the innermost call. -/
def step (s : Unlinking) : Unlinking :=
  match s.calls with
  | [] => s
  | .begun node :: outer =>
    -- A node without links is done with at once.
    if node.links = [] then { s with calls := .ending node.links :: outer }
    else { s with calls := .unlinking node.stripped node.links.reverse :: outer }
  | .unlinking node [] :: outer => { s with calls := .ending node.links :: outer }
  | .unlinking node (e :: pending) :: outer => s.workOff node e pending outer
  | .ending [] :: outer => { s with calls := outer }
  | .ending (e :: links) :: outer => giveUp { s with calls := .ending links :: outer } e

/-- A share of an exception is given up. -/
def start (g : ExceptionGraph) (e : ExceptionRef) : Unlinking :=
  giveUp { graph := g } e

end Unlinking

end ExceptionGraph

end Ferry
