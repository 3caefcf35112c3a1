import Ferry.Bridge.Basic

/-!
# Reconstructing exceptions

A failed status is turned back into an exception.  If its one slot has a handler, the handler builds
the exception.  If no slot has one, or a slot that has one is not alone, the exception is made from
code and message alone.

Main statement: success is dropped and stands for no exception (`reconstruct_of_isOk`).
-/

namespace Ferry.Bridge

/-! ## Dispatch -/

/-- How a failed status is raised. -/
inductive Dispatch where
  /-- No slot has a handler. -/
  | plain
  /-- The one slot has a handler. -/
  | handler (key : String)
  /-- A slot that has a handler is not alone. -/
  | ambiguous
  deriving DecidableEq

/-- Decides by the keys of the slots how a status is raised. -/
def classify (b : Bridge) (status : Status) : Dispatch :=
  match status.keys with
  | [] => .plain
  | [key] => if b.table.contains key then .handler key else .plain
  | keys => if keys.any b.table.contains then .ambiguous else .plain

/-! ## Reconstructing and raising -/

/-- The message that an exception of a kind gets from a status. -/
def messageFor (b : Bridge) (status : Status) (kind : Kind) : String :=
  status.messageFor b.config.strip kind

/-- The exception made from code and message alone. -/
def plainException (b : Bridge) (h : Holdings) (status : Status) : Holdings × ExceptionRef :=
  h.newException (Kind.ofCode status.code) (status.plainMessage b.config.strip)

/-- Makes the plain exception of a status and drops the status. -/
def settlePlain (b : Bridge) (h : Holdings) (status : Status) :
    Holdings × Except Fault (Option ExceptionRef) :=
  let made := b.plainException h status
  (made.1.dropStatus status, .ok (some made.2))

/-- Runs the handler of a key on a payload, with the rest of its status.  Payload and status are
used up. -/
def handle (b : Bridge) (h : Holdings) (handler : Handler) (payload : Payload) (rest : Status) :
    Holdings × Except Fault (Option ExceptionRef) :=
  match handler.run h b.registry b.config.strip payload rest with
  | (after, .ok e) => (after.dropStatus rest, .ok (some e))
  | (after, .error fault) =>
    match b.config.onUnresolved with
    | .fail => (after.dropStatus rest, .error fault)
    | .fallback => b.settlePlain after rest

/-- Turns a failed status into the exception it stands for; success stands for none.  The status is
used up. -/
def reconstruct (b : Bridge) (h : Holdings) (status : Status) :
    Holdings × Except Fault (Option ExceptionRef) :=
  if status.isOk then (h.dropStatus status, .ok none)
  else
    match b.classify status with
    | .handler key =>
      match b.table.get? key, status.take? key with
      | some handler, some (payload, rest) => b.handle h handler payload rest
      -- A key that the dispatch answers with is bound and present.
      | _, _ => b.settlePlain h status
    | .plain | .ambiguous => b.settlePlain h status

/-- What raising a status comes to. -/
inductive Raised where
  /-- Nothing failed. -/
  | nothing
  | exception (e : ExceptionRef)
  /-- The exception could not be reconstructed. -/
  | fault (fault : Fault)
  deriving DecidableEq

/-- Raises a status, which is used up. -/
def raise (b : Bridge) (h : Holdings) (status : Status) : Holdings × Raised :=
  match b.reconstruct h status with
  | (after, .ok none) => (after, .nothing)
  | (after, .ok (some e)) => (after, .exception e)
  | (after, .error fault) => (after, .fault fault)

theorem reconstruct_of_isOk {b : Bridge} {h : Holdings} {status : Status}
    (isOk : status.isOk = true) : b.reconstruct h status = (h.dropStatus status, .ok none) := by
  simp [reconstruct, isOk]

end Ferry.Bridge
