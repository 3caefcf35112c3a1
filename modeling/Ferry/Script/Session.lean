import Ferry.Script.Record

/-!
# Sessions

A session runs commands over named variables.  Statuses, payloads, handles, exceptions, objects,
outlines, counters and handler tables have names of their own, so one name may stand for one of
each.

A variable holds the shares of its value.  Binding a name drops what the name held before, after the
new value is made; unbinding hands the value and its shares over.
-/

namespace Ferry.Script

/-- An object variable.  It remembers its object after it has given its share up. -/
structure ObjectVariable where
  ref : ItemRef
  /-- Whether the variable still holds a share. -/
  held : Bool
  deriving DecidableEq

/-- What is alive, the bridges, and the variables. -/
structure Session where
  holdings : Holdings
  bridges : List Bridge := []
  statuses : KeyedList Status := {}
  payloads : KeyedList Payload := {}
  handles : KeyedList Handle := {}
  exceptions : KeyedList ExceptionRef := {}
  objects : KeyedList ObjectVariable := {}
  outlines : KeyedList Outline := {}
  counters : KeyedList Nat := {}
  tables : KeyedList HandlerTable := {}

/-! ## Answers -/

/-- The value that a command answers with. -/
inductive Answer where
  | nothing
  | flag (value : Bool)
  | text (value : String)
  | bytes (value : List UInt8)
  | place (value : Nat)
  | keys (value : List String)
  | status (record : StatusRecord)
  | payload (record : PayloadRecord)
  | handle (value : Handle)
  | shown (value : Shown)
  | object (record : ObjectRecord)
  | exception (record : ExceptionRecord)
  /-- An exception with the texts of its chain and of the exception it was raised from. -/
  | exceptionInFull (record : ExceptionRecord) (chain : List String) (origin : Option String)
  /-- Whether a slot was erased, and the text of the status afterwards. -/
  | erased (present : Bool) (text : String)
  /-- The payload taken from a slot, and how many slots are left. -/
  | taken (payload : Option PayloadRecord) (left : Nat)
  /-- The bytes of a slot and whether they have an owner, if the slot exists. -/
  | slot (content : Option (List UInt8 × Bool))
  | counts (value : List (String × Nat))
  | outline (record : OutlineRecord)
  | dispatch (value : Bridge.Dispatch)
  | raised (record : RaisedRecord)
  | config (value : Config)
  /-- The keys of a table and, for a key asked about, whether it is bound and whether a look-up
  finds its handler. -/
  | handlers (keys : List String) (has : Option (Bool × Bool))
  deriving DecidableEq

/-- What a command comes to. -/
inductive Reply where
  | answer (value : Answer)
  | fault (fault : Fault)
  /-- A variable, registry or bridge that the command names does not exist. -/
  | unbound (name : String)
  deriving DecidableEq

namespace Session

/-- A session with empty registries and bridges over them. -/
def start (identities : List UInt64) (bridges : List Bridge) : Session :=
  { holdings := Holdings.start identities, bridges }

/-- A session over all registries that a process has made.  It draws a word once, and the identities
of the registries come from this word and from a counter. -/
def launch (drawn : UInt64) (number : Nat) (bridges : List Bridge) : Session :=
  start (Handle.identities drawn number) bridges

/-- Exchanges the holdings. -/
def withHoldings (s : Session) (h : Holdings) : Session :=
  { s with holdings := h }

/-- Exchanges the exceptions. -/
def withGraph (s : Session) (g : ExceptionGraph) : Session :=
  s.withHoldings { s.holdings with exceptions := g }

/-! ## Binding and unbinding -/

/-- Gives up what a status variable held. -/
def dropOldStatus (h : Holdings) : Option Status → Holdings
  | some status => h.dropStatus status
  | none => h

/-- Binds a status variable and drops what it held. -/
def bindStatus (s : Session) (name : String) (status : Status) : Session :=
  { s with
    statuses := s.statuses.insert name status
    holdings := dropOldStatus s.holdings (s.statuses.find? name) }

/-- Binds a status variable to a changed form of the status it holds. -/
def updateStatus (s : Session) (name : String) (changed : Holdings × Status) : Session :=
  { s with holdings := changed.1, statuses := s.statuses.insert name changed.2 }

/-- Unbinds a status variable.  Its shares pass to the caller. -/
def unbindStatus (s : Session) (name : String) : Session :=
  { s with statuses := s.statuses.erase name }

/-- Binds a payload variable and drops what it held. -/
def bindPayload (s : Session) (name : String) (payload : Payload) : Session :=
  { s with
    payloads := s.payloads.insert name payload
    holdings := s.holdings.dropOptional (s.payloads.find? name) }

/-- Unbinds a payload variable.  Its share passes to the caller. -/
def unbindPayload (s : Session) (name : String) : Session :=
  { s with payloads := s.payloads.erase name }

/-- Binds a handle variable. -/
def bindHandle (s : Session) (name : String) (handle : Handle) : Session :=
  { s with handles := s.handles.insert name handle }

/-- Gives up what an exception variable held. -/
def dropOldException (h : Holdings) : Option ExceptionRef → Holdings
  | some e => h.dropException e
  | none => h

/-- Binds an exception variable and drops what it held. -/
def bindException (s : Session) (name : String) (e : ExceptionRef) : Session :=
  { s with
    exceptions := s.exceptions.insert name e
    holdings := dropOldException s.holdings (s.exceptions.find? name) }

/-- Unbinds an exception variable.  Its share passes to the caller. -/
def unbindException (s : Session) (name : String) : Session :=
  { s with exceptions := s.exceptions.erase name }

/-- Binds an exception variable, or drops the exception for lack of a name. -/
def keepException (s : Session) (name : Option String) (e : ExceptionRef) : Session :=
  match name with
  | some name => s.bindException name e
  | none => s.withHoldings (s.holdings.dropException e)

/-- Gives up the share of an object variable that holds one. -/
def dropOldObject (h : Holdings) : Option ObjectVariable → Holdings
  | some { ref, held := true } => h.dropObject (.item ref)
  | _ => h

/-- Binds an object variable and drops what it held. -/
def bindObject (s : Session) (name : String) (ref : ItemRef) : Session :=
  { s with
    objects := s.objects.insert name { ref, held := true }
    holdings := dropOldObject s.holdings (s.objects.find? name) }

/-- Gives up the share of an object variable, if it still holds one.  The variable remembers its
object. -/
def letGoObject (s : Session) (name : String) (kept : ObjectVariable) : Session :=
  { s with
    objects := s.objects.insert name { kept with held := false }
    holdings := dropOldObject s.holdings (some kept) }

/-- Binds an outline variable. -/
def bindOutline (s : Session) (name : String) (outline : Outline) : Session :=
  { s with outlines := s.outlines.insert name outline }

/-! ## Looking up -/

/-- Goes on with the value that a look-up found, or answers that the name is unbound. -/
def given {α : Type} (s : Session) (name : String) (found : Option α)
    (act : α → Session × Reply) : Session × Reply :=
  match found with
  | some value => act value
  | none => (s, .unbound name)

/-- Goes on with the value of a name among given variables, or with nothing if there is no name. -/
def givenOptional {α : Type} (s : Session) (among : KeyedList α) (name : Option String)
    (act : Option α → Session × Reply) : Session × Reply :=
  match name with
  | none => act none
  | some name => s.given name (among.find? name) fun value => act (some value)

/-- Goes on with the value of a status variable. -/
def onStatus (s : Session) (name : String) (act : Status → Session × Reply) : Session × Reply :=
  s.given name (s.statuses.find? name) act

/-- Goes on with the value of a payload variable. -/
def onPayload (s : Session) (name : String) (act : Payload → Session × Reply) : Session × Reply :=
  s.given name (s.payloads.find? name) act

/-- Goes on with the value of a handle variable. -/
def onHandle (s : Session) (name : String) (act : Handle → Session × Reply) : Session × Reply :=
  s.given name (s.handles.find? name) act

/-- Goes on with the value of an exception variable. -/
def onException (s : Session) (name : String) (act : ExceptionRef → Session × Reply) :
    Session × Reply :=
  s.given name (s.exceptions.find? name) act

/-- Goes on with the value of an exception variable, or with nothing if no variable is named. -/
def onOptionalException (s : Session) (name : Option String)
    (act : Option ExceptionRef → Session × Reply) : Session × Reply :=
  s.givenOptional s.exceptions name act

/-- The item of an object variable that holds a share. -/
def heldItem? (s : Session) (name : String) : Option ItemRef :=
  match s.objects.find? name with
  | some { ref, held := true } => some ref
  | _ => none

/-- Goes on with the item of an object variable that holds a share. -/
def onItem (s : Session) (name : String) (act : ItemRef → Session × Reply) : Session × Reply :=
  s.given name (s.heldItem? name) act

/-- Goes on with the value of an outline variable. -/
def onOutline (s : Session) (name : String) (act : Outline → Session × Reply) :
    Session × Reply :=
  s.given name (s.outlines.find? name) act

/-- The bridge at a place, if its registry exists. -/
def bridge? (s : Session) (place : Nat) : Option Bridge :=
  s.bridges[place]?.filter fun b => b.registry < s.holdings.registries.size

/-- Goes on with a bridge. -/
def onBridge (s : Session) (place : Nat) (act : Bridge → Session × Reply) : Session × Reply :=
  s.given (Nat.repr place) (s.bridge? place) act

/-! ## Showing -/

/-- The exception variables that hold an exception, in the order of their bytes. -/
def namesOf (s : Session) (e : ExceptionRef) : List String :=
  Text.Utf8.sort ((s.exceptions.entries.filter fun entry => entry.2 = e).map Prod.fst)

/-- The record of an exception. -/
def exceptionRecord (s : Session) (e : ExceptionRef) : ExceptionRecord :=
  ExceptionRecord.of s.holdings.exceptions s.namesOf e

/-- The object variable that belongs to an object, also one that has given its share up. -/
def nameOf? (s : Session) : Object → Option String
  | .item ref => (s.objects.entries.find? fun entry => entry.2.ref = ref).map Prod.fst
  | .exception _ => none

/-- The record of an object that was found. -/
def objectRecord (s : Session) (object : Object) : ObjectRecord where
  shown := Shown.ofObject s.holdings object
  name := s.nameOf? object

/-- Shows an object and gives up the caller's share of it, or reports the fault. -/
def showObject (s : Session) : Except Fault Object → Session × Reply
  | .error fault => (s, .fault fault)
  | .ok object =>
    (s.withHoldings (s.holdings.dropObject object), .answer (.object (s.objectRecord object)))

/-- Shows the object of a slot likewise; an absent slot is shown as nothing. -/
def showOptionalObject (s : Session) : Except Fault (Option Object) → Session × Reply
  | .error fault => (s, .fault fault)
  | .ok none => (s, .answer .nothing)
  | .ok (some object) => s.showObject (.ok object)

/-- Shows an exception and binds it to a variable, or drops it for lack of a name. -/
def showAndKeep (s : Session) (name : Option String) (e : ExceptionRef) : Session × Reply :=
  (s.keepException name e, .answer (.exception (s.exceptionRecord e)))

/-- Shows a status and binds it to a variable. -/
def showAndBind (s : Session) (name : String) (made : Holdings × Status) : Session × Reply :=
  ((s.withHoldings made.1).bindStatus name made.2, .answer (.status (.of made.2)))

/-- Shows a payload and binds it to a variable. -/
def showAndBindPayload (s : Session) (name : String) (made : Holdings × Payload) :
    Session × Reply :=
  ((s.withHoldings made.1).bindPayload name made.2, .answer (.payload (.of made.2)))

/-- Shows the changed form of the status that a variable holds. -/
def showAndUpdate (s : Session) (name : String) (changed : Holdings × Status) : Session × Reply :=
  (s.updateStatus name changed, .answer (.status (.of changed.2)))

end Session

end Ferry.Script
