import Ferry.Script.Session

/-!
# Commands on objects, registry entries and tokens
-/

namespace Ferry.Script

/-- What a new object is made of.  A status variable is used up. -/
inductive ItemSource where
  | number (value : UInt64)
  | text (value : String)
  | bytes (value : List UInt8)
  | status (s : String)

/-- A command on object variables, handle variables, registries and tokens. -/
inductive ObjectCommand where
  | new (o : String) (source : ItemSource)
  | drop (o : String)
  /-- The number of shares of each object. -/
  | counts
  | store (o h : String) (r : Nat)
  | bindHandle (h : String) (value : Handle)
  | sameHandle (h other : String)
  | borrow (h : String) (r : Nat) (type : Option ObjectType)
  | fetch (h : String) (r : Nat) (type : Option ObjectType)
  | release (h : String) (r : Nat)
  | validate (h : String) (r : Nat)
  | contains (h : String) (r : Nat)
  | encode (h : String)
  | decode (bytes : List UInt8) (r : Nat) (h : Option String)
  | mint (o p : String) (r : Nat)
  | consume (p : String) (r : Nat)
  /-- Writes an object to a slot, or erases the slot for lack of one. -/
  | write (s key : String) (r : Nat) (o : Option String)
  | read (s key : String) (r : Nat) (type : ObjectType)
  | takeOut (s key : String) (r : Nat) (type : ObjectType)
  | throughToken (o : String) (r : Nat)

namespace ObjectCommand

/-- Takes in an item under the name of an object variable. -/
def make (session : Session) (o : String) (item : Item) : Session × Reply :=
  let made := session.holdings.newItem item
  ((session.withHoldings made.1).bindObject o made.2, .answer (.shown (.ofItem item)))

/-- The registry that a command works on. -/
def registry? : ObjectCommand → Option Nat
  | store _ _ r | borrow _ r _ | fetch _ r _ | release _ r | validate _ r | contains _ r
  | decode _ r _ | mint _ _ r | consume _ r | write _ _ r _ | read _ _ r _ | takeOut _ _ r _
  | throughToken _ r => some r
  | new _ _ | drop _ | counts | bindHandle _ _ | sameHandle _ _ | encode _ => none

/-- Runs a command whose registry exists. -/
def perform (session : Session) : ObjectCommand → Session × Reply
  | new o (.number value) => make session o (.number value)
  | new o (.text value) => make session o (.text value)
  | new o (.bytes value) => make session o (.bytes value)
  | new o (.status s) =>
    session.onStatus s fun status => make (session.unbindStatus s) o (.status status)
  | drop o =>
    session.given o (session.objects.find? o) fun kept =>
      (session.letGoObject o kept, .answer .nothing)
  | counts =>
    let counts := session.objects.entries.map fun entry =>
      (entry.1, session.holdings.items.holders entry.2.ref)
    (session, .answer (.counts counts))
  | store o h r =>
    session.onItem o fun ref =>
      let stored := (session.holdings.retainObject (.item ref)).store r (.item ref)
      ((session.withHoldings stored.1).bindHandle h stored.2, .answer (.handle stored.2))
  | bindHandle h value => (session.bindHandle h value, .answer (.handle value))
  | sameHandle h other =>
    session.onHandle h fun a => session.onHandle other fun b =>
      (session, .answer (.flag (a == b)))
  | borrow h r type =>
    session.onHandle h fun handle =>
      let borrowed := match type with
        | none => session.holdings.borrow r handle
        | some type => session.holdings.borrowAs r type handle
      (session.withHoldings borrowed.1).showObject borrowed.2
  | fetch h r type =>
    session.onHandle h fun handle =>
      let fetched := match type with
        | none => session.holdings.fetch r handle
        | some type => session.holdings.fetchAs r type handle
      (session.withHoldings fetched.1).showObject fetched.2
  | release h r =>
    session.onHandle h fun handle =>
      match session.holdings.release r handle with
      | (after, .ok ()) => (session.withHoldings after, .answer .nothing)
      | (after, .error fault) => (session.withHoldings after, .fault fault)
  | validate h r =>
    session.onHandle h fun handle =>
      match session.holdings.validate r handle with
      | .ok () => (session, .answer .nothing)
      | .error fault => (session, .fault fault)
  | contains h r =>
    session.onHandle h fun handle =>
      (session, .answer (.flag (session.holdings.contains r handle)))
  | encode h => session.onHandle h fun handle => (session, .answer (.bytes (Token.encode handle)))
  | decode bytes r h =>
    match session.holdings.decode r bytes with
    | .error fault => (session, .fault fault)
    | .ok handle =>
      let after := match h with
        | some h => session.bindHandle h handle
        | none => session
      (after, .answer (.handle handle))
  | mint o p r =>
    session.onItem o fun ref =>
      session.showAndBindPayload p
        ((session.holdings.retainObject (.item ref)).mint r (.item ref))
  | consume p r =>
    session.onPayload p fun payload =>
      let consumed := session.holdings.consume r payload
      ((session.unbindPayload p).withHoldings consumed.1).showObject consumed.2
  | write s key r none =>
    session.onStatus s fun status =>
      session.showAndUpdate s (session.holdings.write r status key none)
  | write s key r (some o) =>
    session.onStatus s fun status => session.onItem o fun ref =>
      session.showAndUpdate s
        ((session.holdings.retainObject (.item ref)).write r status key (some (.item ref)))
  | read s key r type =>
    session.onStatus s fun status =>
      let found := session.holdings.read r status key type
      (session.withHoldings found.1).showOptionalObject found.2
  | takeOut s key r type =>
    session.onStatus s fun status =>
      let (after, rest, result) := session.holdings.takeOut r status key type
      (session.updateStatus s (after, rest)).showOptionalObject result
  | throughToken o r =>
    session.onItem o fun ref =>
      let passed := (session.holdings.retainObject (.item ref)).throughToken r (.item ref)
      (session.withHoldings passed.1).showObject passed.2

/-- Runs a command on objects. -/
def run (session : Session) (command : ObjectCommand) : Session × Reply :=
  match command.registry? with
  | none => perform session command
  | some r =>
    if r < session.holdings.registries.size then perform session command
    else (session, .unbound (Nat.repr r))

end ObjectCommand

end Ferry.Script
