import Ferry.Bridge.Draft
import Ferry.Holdings.Token
import Ferry.Status.Text

/-!
# Handlers

A handler builds the exception for a failed status from the payload of one slot.  What it may do
with the payload is to drop it or to take the exception out of it, and it may choose.  It sees the
bytes, the status without the slot, what its bridge works with, and all exceptions, and answers with
a draft or a fault.

A handler may keep exceptions for itself, or follow the links of the one that it took out.  What it
can get hold of has a holder, so it names an exception that is alive; who the holder is makes no
difference to it.
-/

namespace Ferry

/-- What a handler is told. -/
structure Notice where
  /-- The registry of the bridge. -/
  registry : Nat
  /-- Whether blanks at the ends of the status's message are removed. -/
  strip : Bool
  /-- The bytes of the payload. -/
  bytes : List UInt8
  /-- The status without the slot. -/
  status : Status

/-- The exception made from code and message alone. -/
def Notice.plain (notice : Notice) {α : Type} : Draft α :=
  .fresh (Kind.ofCode notice.status.code) (notice.status.plainMessage notice.strip)

/-- What a handler does with the payload of a slot, once it is called.  It answers with a draft for
an exception, or with a fault, and may name any exception that is alive when it answers. -/
inductive Plan (g : ExceptionGraph) where
  /-- Drops the payload. -/
  | discard (answer : Except Fault (Draft g.Live))
  /-- Takes the exception out of the payload, through the registry of its bridge or another one, and
  answers for the case that this succeeds, and for the case that it fails.  The exceptions are seen
  as they are afterwards; `none` names the one that was taken out. -/
  | resolve (through : Nat)
      (onTaken : (after : ExceptionGraph) → ExceptionRef →
        Except Fault (Draft (Option after.Live)))
      (onFault : (after : ExceptionGraph) → Fault → Except Fault (Draft after.Live))

/-- How to build an exception from the payload of a slot. -/
structure Handler where
  /-- What is done may depend on the notice and on the exceptions that there are. -/
  plan : Notice → (g : ExceptionGraph) → Plan g

namespace Handler

/-- Makes the exception of an answer.  What the draft names is kept alive until it is made. -/
def realize {α : Type} (h : Holdings) (refs : α → ExceptionRef) :
    Except Fault (Draft α) → Holdings × Except Fault ExceptionRef
  | .error fault => (h, .error fault)
  | .ok draft =>
    let named := draft.names.map refs
    let built := draft.build (ExceptionGraph.retainAll h.exceptions named) refs
    ({ h with exceptions := ExceptionGraph.dropAll built.1 named }, .ok built.2)

/-- Runs a handler on a payload of a registry.  The payload is used up; the status is not. -/
def run (handler : Handler) (h : Holdings) (r : Nat) (strip : Bool) (payload : Payload)
    (status : Status) : Holdings × Except Fault ExceptionRef :=
  let notice : Notice := { registry := r, strip, bytes := payload.bytes, status }
  match handler.plan notice h.exceptions with
  | .discard answer =>
    -- The payload lives until the handler is done.
    let made := realize h ExceptionGraph.Live.ref answer
    (made.1.dropPayload payload, made.2)
  | .resolve through onTaken onFault =>
    match h.unpackException through payload with
    | (after, .ok e) =>
      let answer := onTaken after.exceptions e
      let made := realize after (Option.elim · e ExceptionGraph.Live.ref) answer
      (made.1.dropException e, made.2)
    | (after, .error fault) =>
      realize after ExceptionGraph.Live.ref (onFault after.exceptions fault)

/-- Raises the exception in the payload as it is. -/
def raw : Handler where
  plan notice _ := .resolve notice.registry (fun _ _ => .ok (.given none))
    (fun _ fault => .error fault)

/-- Raises the exception made from code and message, caused by the exception in the payload. -/
def cause : Handler where
  plan notice _ := .resolve notice.registry
    (fun _ _ => .ok (.raiseFrom notice.plain (.given none))) (fun _ fault => .error fault)

end Handler

end Ferry
