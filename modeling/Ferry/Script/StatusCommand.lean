import Ferry.Script.Session

/-!
# Commands on statuses
-/

namespace Ferry.Script

/-- A command on status variables. -/
inductive StatusCommand where
  | new (s : String) (code : Code) (message : String)
  | ok (s : String)
  | setMessage (s message : String)
  | setBytes (s key : String) (bytes : List UInt8)
  | setText (s key text : String)
  /-- Puts another copy of a payload into a slot. -/
  | setPayload (s key p : String)
  | erase (s key : String)
  /-- Takes the payload out of a slot, into a payload variable if one is named. -/
  | take (s key : String) (p : Option String)
  /-- Looks at a slot, and binds a payload variable to another copy if one is named. -/
  | get (s key : String) (p : Option String)
  | keys (s : String)
  | display (s : String)
  | debug (s : String)
  | snapshot (s target : String)
  | clone (s target : String)
  | drop (s : String)
  | alike (s other : String)

namespace StatusCommand

/-- Runs a command on statuses. -/
def run (session : Session) : StatusCommand → Session × Reply
  | new s code message => session.showAndBind s (session.holdings, .new code message)
  | ok s => session.showAndBind s (session.holdings, .ok)
  | setMessage s message =>
    session.onStatus s fun status =>
      session.showAndUpdate s (session.holdings, status.setMessage message)
  | setBytes s key bytes =>
    session.onStatus s fun status =>
      session.showAndUpdate s (session.holdings.setSlot status key (.ofBytes bytes))
  | setText s key text =>
    session.onStatus s fun status =>
      session.showAndUpdate s (session.holdings.setSlot status key (.ofText text))
  | setPayload s key p =>
    session.onPayload p fun payload => session.onStatus s fun status =>
      session.showAndUpdate s
        ((session.holdings.retainPayload payload).setSlot status key payload)
  | erase s key =>
    session.onStatus s fun status =>
      let erased := session.holdings.eraseSlot status key
      (session.updateStatus s erased,
        .answer (.erased (status.slot? key).isSome erased.2.text))
  | take s key p =>
    session.onStatus s fun status =>
      match status.take? key with
      | none => (session, .answer (.taken none status.slots.size))
      | some (payload, rest) =>
        -- The payload's share moves; nothing is given up yet.
        let after := session.updateStatus s (session.holdings, rest)
        let kept := match p with
          | some p => after.bindPayload p payload
          | none => after.withHoldings (after.holdings.dropPayload payload)
        (kept, .answer (.taken (some (.of payload)) rest.slots.size))
  | get s key p =>
    session.onStatus s fun status =>
      match status.slot? key, p with
      | none, _ => (session, .answer (.slot none))
      | some payload, none => (session, .answer (.slot (some (payload.bytes, payload.isOwned))))
      | some payload, some p =>
        ((session.withHoldings (session.holdings.retainPayload payload)).bindPayload p payload,
          .answer (.slot (some (payload.bytes, payload.isOwned))))
  | keys s => session.onStatus s fun status => (session, .answer (.keys status.keys))
  | display s => session.onStatus s fun status => (session, .answer (.status (.of status)))
  | debug s => session.onStatus s fun status => (session, .answer (.text status.debugText))
  | snapshot s target =>
    session.onStatus s fun status =>
      session.showAndBind target (session.holdings, status.snapshot)
  | clone s target =>
    session.onStatus s fun status =>
      session.showAndBind target (session.holdings.retainStatus status, status)
  | drop s =>
    session.onStatus s fun status =>
      ((session.unbindStatus s).withHoldings (session.holdings.dropStatus status),
        .answer .nothing)
  | alike s other =>
    session.onStatus s fun a => session.onStatus other fun b =>
      (session, .answer (.flag (a.alike b)))

end StatusCommand

end Ferry.Script
