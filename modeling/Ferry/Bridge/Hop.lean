import Ferry.Bridge.Capture
import Ferry.Bridge.Reconstruct

/-!
# Hops of a chain

A failure is passed on by making it the cause of another: either of a new exception, which is
captured, or of the exception that a new status stands for.

Main statement: success is handed back unchanged (`hop_of_isOk`).
-/

namespace Ferry.Bridge

/-- One way of passing a failure on. -/
inductive Hop where
  /-- As an exception of a kind and message that is raised from the failure. -/
  | chain (kind : Kind) (message : String)
  /-- As a code and message, from which the outer exception is made when the status is raised. -/
  | wrap (code : Code) (message : String)
  deriving DecidableEq

/-- Captures a new exception raised from another, if there is one.  Takes a share of the other. -/
def captureFrom (b : Bridge) (h : Holdings) (kind : Kind) (message : String)
    (cause : Option ExceptionRef) : Holdings × Status :=
  let made := h.newException kind message
  match cause with
  | none =>
    let captured := b.capture made.1 made.2
    (captured.1.dropException made.2, captured.2)
  | some inner =>
    let raised := ExceptionGraph.raiseFrom made.1.exceptions made.2 inner
    let captured := b.capture { made.1 with exceptions := raised.1 } raised.2
    (captured.1.dropException raised.2, captured.2)

/-- Passes a failed status on.  Success is handed back unchanged.  The inner status is used up. -/
def hop (b : Bridge) (h : Holdings) (inner : Status) (step : Hop) :
    Holdings × Except Fault Status :=
  if inner.isOk then (h, .ok inner)
  else
    match b.reconstruct h inner with
    | (after, .error fault) => (after, .error fault)
    | (after, .ok cause) =>
      match step with
      | .chain kind message =>
        let captured := b.captureFrom after kind message cause
        (captured.1, .ok captured.2)
      | .wrap code message =>
        let wrapped := b.carryCause after code message cause
        (wrapped.1, .ok wrapped.2)

/-- Passes a status on several times, up to the first fault. -/
def hops (b : Bridge) (h : Holdings) (inner : Status) : List Hop → Holdings × Except Fault Status
  | [] => (h, .ok inner)
  | step :: rest =>
    match b.hop h inner step with
    | (after, .error fault) => (after, .error fault)
    | (after, .ok outer) => b.hops after outer rest

theorem hop_of_isOk {b : Bridge} {h : Holdings} {inner : Status} (step : Hop)
    (isOk : inner.isOk = true) : b.hop h inner step = (h, .ok inner) := by
  simp [hop, isOk]

@[simp] theorem hops_nil (b : Bridge) (h : Holdings) (inner : Status) :
    b.hops h inner [] = (h, .ok inner) := rfl

end Ferry.Bridge
