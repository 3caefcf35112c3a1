import Ferry.Script.Session

/-!
# Commands on bridges and handler tables

Scripts name the handlers they register.  Besides the handler that raises the exception in the
payload, there is one that quotes the payload, one that describes status and payload, and one that
always fails.
-/

namespace Ferry.Script

/-! ## Named handlers -/

/-- The handlers that scripts can register. -/
inductive HandlerName where
  /-- An exception whose message is the payload's bytes read as characters, raised from the plain
  exception. -/
  | text
  /-- The exception in the payload. -/
  | take
  /-- An exception that describes the status and the length of the payload, with the plain
  exception as its context. -/
  | describe
  /-- No exception ever. -/
  | fail
  deriving DecidableEq

/-- The handler of a name. -/
def HandlerName.handler : HandlerName → Handler
  | text => ⟨fun notice _ => .discard (.ok (.raiseFrom
      (.fresh .generic (String.ofList (Text.Ascii.chars notice.bytes))) notice.plain))⟩
  | take => .raw
  | describe => ⟨fun notice _ => .discard (.ok (.setContext
      (.fresh .type (notice.status.text ++ "|" ++ Nat.repr notice.bytes.length)) notice.plain))⟩
  | fail => ⟨fun _ _ => .discard (.error .detached)⟩

/-! ## Commands -/

/-- A command on a bridge or on a handler table of its own. -/
inductive BridgeCommand where
  | capture (b : Nat) (e s : String)
  | carryRaw (b : Nat) (code : Code) (message : String) (e : Option String) (s : String)
  | carryCause (b : Nat) (code : Code) (message : String) (e : Option String) (s : String)
  | classify (b : Nat) (s : String)
  | reconstruct (b : Nat) (s : String) (e : Option String)
  | raise (b : Nat) (s : String) (e : Option String)
  | plain (b : Nat) (s : String) (e : Option String)
  | format (b : Nat) (s : String) (kind : Kind)
  | unpack (b : Nat) (p : String) (e : Option String)
  /-- Passes a status on several times. -/
  | hop (b : Nat) (s target : String) (step : Bridge.Hop) (count : Nat)
  | config (b : Nat)
  | register (b : Nat) (key : String) (handler : HandlerName)
  | handlers (b : Nat) (key : Option String)
  /-- Registers in a table of its own, made on its first use. -/
  | registerIn (t key : String) (handler : HandlerName)
  /-- Runs a handler of a table of its own. -/
  | runIn (t key : String) (b : Nat) (p s : String) (e : Option String)

namespace BridgeCommand

/-- Adds a share of an optional exception. -/
def retainOptional (h : Holdings) : Option ExceptionRef → Holdings
  | some e => h.retainException e
  | none => h

/-- Shows what became of a status that was raised. -/
def showRaised (session : Session) (e : Option String) : Bridge.Raised → Session × Reply
  | .nothing => (session, .answer (.raised .nothing))
  | .fault fault => (session, .answer (.raised (.fault fault)))
  | .exception ref =>
    let g := session.holdings.exceptions
    (session.keepException e ref,
      .answer (.raised (.exception (session.exceptionRecord ref) (ExceptionGraph.text g ref)
        (ExceptionGraph.sourceText? g ref))))

/-- Shows an exception that was built, or reports the fault. -/
def showBuilt (session : Session) (e : Option String) : Except Fault ExceptionRef → Session × Reply
  | .error fault => (session, .fault fault)
  | .ok ref => session.showAndKeep e ref

/-- Exchanges a bridge. -/
def withBridge (session : Session) (place : Nat) (b : Bridge) : Session :=
  { session with bridges := session.bridges.set place b }

/-- The table of a name; one that was not used yet is empty. -/
def tableOf (session : Session) (t : String) : HandlerTable :=
  (session.tables.find? t).getD {}

/-- Runs a command on a bridge. -/
def run (session : Session) : BridgeCommand → Session × Reply
  | capture b e s =>
    session.onBridge b fun bridge => session.onException e fun ref =>
      session.showAndBind s (bridge.capture session.holdings ref)
  | carryRaw b code message e s =>
    session.onBridge b fun bridge => session.onOptionalException e fun ref =>
      session.showAndBind s
        (bridge.carryRaw (retainOptional session.holdings ref) code message ref)
  | carryCause b code message e s =>
    session.onBridge b fun bridge => session.onOptionalException e fun ref =>
      session.showAndBind s
        (bridge.carryCause (retainOptional session.holdings ref) code message ref)
  | classify b s =>
    session.onBridge b fun bridge => session.onStatus s fun status =>
      (session, .answer (.dispatch (bridge.classify status)))
  | reconstruct b s e =>
    session.onBridge b fun bridge => session.onStatus s fun status =>
      -- The variable is gone whatever comes of it.
      let rebuilt := bridge.reconstruct session.holdings status
      let after := (session.unbindStatus s).withHoldings rebuilt.1
      match rebuilt.2 with
      | .error fault => (after, .fault fault)
      | .ok none => (after, .answer .nothing)
      | .ok (some ref) => after.showAndKeep e ref
  | raise b s e =>
    session.onBridge b fun bridge => session.onStatus s fun status =>
      let raised := bridge.raise session.holdings status
      showRaised ((session.unbindStatus s).withHoldings raised.1) e raised.2
  | plain b s e =>
    session.onBridge b fun bridge => session.onStatus s fun status =>
      let made := bridge.plainException session.holdings status
      (session.withHoldings made.1).showAndKeep e made.2
  | format b s kind =>
    session.onBridge b fun bridge => session.onStatus s fun status =>
      (session, .answer (.text (bridge.messageFor status kind)))
  | unpack b p e =>
    session.onBridge b fun bridge => session.onPayload p fun payload =>
      let taken := session.holdings.unpackException bridge.registry payload
      showBuilt ((session.unbindPayload p).withHoldings taken.1) e taken.2
  | hop b s target step count =>
    session.onBridge b fun bridge => session.onStatus s fun status =>
      let passed := bridge.hops session.holdings status (List.replicate count step)
      let after := session.unbindStatus s
      match passed.2 with
      | .error fault => (after.withHoldings passed.1, .fault fault)
      | .ok outer => after.showAndBind target (passed.1, outer)
  | config b => session.onBridge b fun bridge => (session, .answer (.config bridge.config))
  | register b key handler =>
    session.onBridge b fun bridge =>
      match bridge.register key handler.handler with
      | .error fault => (session, .fault fault)
      | .ok bridge => (withBridge session b bridge, .answer .nothing)
  | handlers b key =>
    session.onBridge b fun bridge =>
      (session, .answer (.handlers bridge.table.keys
        (key.map fun key => (bridge.table.contains key, (bridge.table.get? key).isSome))))
  | registerIn t key handler =>
    match (tableOf session t).register key handler.handler with
    | .error fault => (session, .fault fault)
    | .ok table =>
      ({ session with tables := session.tables.insert t table }, .answer (.keys table.keys))
  | runIn t key b p s e =>
    session.onBridge b fun bridge =>
      match (tableOf session t).get? key with
      | none => (session, .answer .nothing)
      | some handler =>
        session.onPayload p fun payload => session.onStatus s fun status =>
          let built := handler.run session.holdings bridge.registry bridge.config.strip payload
            status
          showBuilt ((session.unbindPayload p).withHoldings built.1) e built.2

end BridgeCommand

end Ferry.Script
