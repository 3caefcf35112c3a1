import Ferry.Exception.Graph

/-!
# Surveys of an exception

A survey lists the distinct exceptions that can be reached from one by links, in the order of a
depth-first walk that visits an exception, then its cause, then its context.  A survey has a limit:
once it lists that many, further exceptions are neither listed nor walked.
-/

namespace Ferry.ExceptionGraph

/-- The links to follow from an exception. -/
def linksOf (g : ExceptionGraph) (e : ExceptionRef) : List ExceptionRef :=
  departing (g.content? e)

theorem length_linksOf_le (g : ExceptionGraph) (e : ExceptionRef) : (linksOf g e).length ≤ 2 := by
  unfold linksOf
  cases g.content? e with
  | none => simp [departing]
  | some node =>
    obtain ⟨_, _, cause, context, _⟩ := node
    cases cause <;> cases context <;> simp [departing, Node.links]

/-- Walks the pending exceptions, given those that are listed already. -/
def walk (g : ExceptionGraph) (limit : Nat) (listed pending : List ExceptionRef) :
    List ExceptionRef :=
  match pending with
  | [] => listed
  | e :: rest =>
    if e ∈ listed ∨ limit ≤ listed.length then walk g limit listed rest
    else walk g limit (listed ++ [e]) (linksOf g e ++ rest)
termination_by 3 * (limit - listed.length) + pending.length
decreasing_by
  · simp
  · have few := length_linksOf_le g e
    simp only [List.length_append, List.length_cons, List.length_nil]
    omega

/-- The exceptions that can be reached from one, up to a limit. -/
def survey (g : ExceptionGraph) (limit : Nat) (e : ExceptionRef) : List ExceptionRef :=
  walk g limit [] [e]

end Ferry.ExceptionGraph
