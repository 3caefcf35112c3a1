import Ferry.Script.BridgeCommand

/-!
# Round trips

A round trip captures a new exception on a bridge, optionally wraps the status in another code, and
reconstructs it, watching the registry at each stage.
-/

namespace Ferry.Script

/-- What a round trip shows. -/
structure RoundTrip where
  /-- Whether the bridge works on the first registry. -/
  shared : Bool
  /-- The keys of the captured status. -/
  keys : List String
  /-- The live entries after the capture. -/
  held : Nat
  dispatch : Bridge.Dispatch
  exception : Option ExceptionRecord
  /-- The live entries at the end. -/
  left : Nat
  deriving DecidableEq

namespace RoundTrip

/-- The variable that holds the captured exception. -/
def exceptionName : String := "original"

/-- The message of the status around the captured one. -/
def wrapMessage : String := "wrapped"

/-- The number of live entries of all registries. -/
def totalLive (h : Holdings) : Nat :=
  sumOf id h.liveCounts

/-- The hops of a round trip: one if a code is given. -/
def hopsOf : Option Code → List Bridge.Hop
  | some code => [.wrap code wrapMessage]
  | none => []

/-- Sends a new exception through a bridge and back. -/
def run (identity : UInt64) (kind : Kind) (message : String) (wrap : Option Code) :
    Except Fault RoundTrip :=
  let b := Bridge.new 0 {}
  let made := (Holdings.start [identity]).newException kind message
  let captured := b.capture made.1 made.2
  let passed := b.hops captured.1 captured.2 (hopsOf wrap)
  match passed.2 with
  | .error fault => .error fault
  | .ok outer =>
    let rebuilt := b.reconstruct passed.1 outer
    match rebuilt.2 with
    | .error fault => .error fault
    | .ok exception =>
      -- Only the variable that holds the captured exception is bound.
      let session := (Session.start [] [b]).withHoldings rebuilt.1
        |>.bindException exceptionName made.2
      .ok
        { shared := b.registry == 0
          keys := captured.2.keys
          held := totalLive captured.1
          dispatch := b.classify captured.2
          exception := exception.map session.exceptionRecord
          left := totalLive rebuilt.1 }

end RoundTrip

end Ferry.Script
