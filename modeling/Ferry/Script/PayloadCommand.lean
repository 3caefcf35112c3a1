import Ferry.Script.Session

/-!
# Commands on payloads
-/

namespace Ferry.Script

/-- A command on payload variables. -/
inductive PayloadCommand where
  | new (p : String) (bytes : List UInt8)
  /-- Makes a payload whose owner adds one to a counter when it goes. -/
  | counted (p : String) (bytes : List UInt8) (counter : String)
  /-- Makes a payload of new bytes under the owner of another payload. -/
  | reown (p : String) (bytes : List UInt8) (owner : String)
  | detach (p target : String)
  | clone (p target : String)
  | display (p : String)
  | alike (p other : String)
  | drop (p : String)
  | tallies

namespace PayloadCommand

/-- The counter of a name, opened on its first use. -/
def counterOf (session : Session) (name : String) : Session × Nat :=
  match session.counters.find? name with
  | some counter => (session, counter)
  | none =>
    let opened := session.holdings.newCounter
    ({ session with
        holdings := opened.1
        counters := session.counters.insert name opened.2 }, opened.2)

/-- Runs a command on payloads. -/
def run (session : Session) : PayloadCommand → Session × Reply
  | new p bytes => session.showAndBindPayload p (session.holdings, .ofBytes bytes)
  | counted p bytes counter =>
    let opened := counterOf session counter
    let owned := opened.1.holdings.newOwner (.tally opened.2)
    opened.1.showAndBindPayload p (owned.1, { bytes, owner := some owned.2 })
  | reown p bytes owner =>
    session.onPayload owner fun payload =>
      session.showAndBindPayload p
        (session.holdings.retainPayload payload, { payload with bytes })
  | detach p target =>
    session.onPayload p fun payload =>
      session.showAndBindPayload target (session.holdings, payload.detached)
  | clone p target =>
    session.onPayload p fun payload =>
      ((session.withHoldings (session.holdings.retainPayload payload)).bindPayload target payload,
        .answer .nothing)
  | display p => session.onPayload p fun payload => (session, .answer (.payload (.of payload)))
  | alike p other =>
    session.onPayload p fun a => session.onPayload other fun b =>
      (session, .answer (.flag (a.alike b)))
  | drop p =>
    session.onPayload p fun payload =>
      ((session.unbindPayload p).withHoldings (session.holdings.dropPayload payload),
        .answer .nothing)
  | tallies =>
    let counts := session.counters.entries.map fun entry =>
      (entry.1, session.holdings.tallies.getD entry.2 0)
    (session, .answer (.counts counts))

end PayloadCommand

end Ferry.Script
