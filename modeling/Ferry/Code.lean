/-!
# Outcome codes

Every call answers with one of seventeen codes.  `Code.ok` is success; the other sixteen name
the category of a failure.  A code has a number (fixed by the wire format), an upper-case name
used in messages, and a label used in diagnostic text.

Main statements: reading a code's number or name gives the code back
(`Code.ofNumber?_number`, `Code.ofName?_name`).
-/

namespace Ferry

/-- Category of the outcome of a call. -/
inductive Code where
  | ok
  | cancelled
  | unknown
  | invalidArgument
  | deadlineExceeded
  | notFound
  | alreadyExists
  | permissionDenied
  | resourceExhausted
  | failedPrecondition
  | aborted
  | outOfRange
  | unimplemented
  | internal
  | unavailable
  | dataLoss
  | unauthenticated
  deriving DecidableEq, Inhabited

namespace Code

/-- The codes in the order of their numbers. -/
def all : List Code :=
  [ok, cancelled, unknown, invalidArgument, deadlineExceeded, notFound, alreadyExists,
    permissionDenied, resourceExhausted, failedPrecondition, aborted, outOfRange, unimplemented,
    internal, unavailable, dataLoss, unauthenticated]

/-- The number a code has on the wire. -/
def number : Code → Nat
  | ok => 0
  | cancelled => 1
  | unknown => 2
  | invalidArgument => 3
  | deadlineExceeded => 4
  | notFound => 5
  | alreadyExists => 6
  | permissionDenied => 7
  | resourceExhausted => 8
  | failedPrecondition => 9
  | aborted => 10
  | outOfRange => 11
  | unimplemented => 12
  | internal => 13
  | unavailable => 14
  | dataLoss => 15
  | unauthenticated => 16

/-- The name a code has in messages. -/
def name : Code → String
  | ok => "OK"
  | cancelled => "CANCELLED"
  | unknown => "UNKNOWN"
  | invalidArgument => "INVALID_ARGUMENT"
  | deadlineExceeded => "DEADLINE_EXCEEDED"
  | notFound => "NOT_FOUND"
  | alreadyExists => "ALREADY_EXISTS"
  | permissionDenied => "PERMISSION_DENIED"
  | resourceExhausted => "RESOURCE_EXHAUSTED"
  | failedPrecondition => "FAILED_PRECONDITION"
  | aborted => "ABORTED"
  | outOfRange => "OUT_OF_RANGE"
  | unimplemented => "UNIMPLEMENTED"
  | internal => "INTERNAL"
  | unavailable => "UNAVAILABLE"
  | dataLoss => "DATA_LOSS"
  | unauthenticated => "UNAUTHENTICATED"

/-- The word for a code in diagnostic text. -/
def label : Code → String
  | ok => "Ok"
  | cancelled => "Cancelled"
  | unknown => "Unknown"
  | invalidArgument => "InvalidArgument"
  | deadlineExceeded => "DeadlineExceeded"
  | notFound => "NotFound"
  | alreadyExists => "AlreadyExists"
  | permissionDenied => "PermissionDenied"
  | resourceExhausted => "ResourceExhausted"
  | failedPrecondition => "FailedPrecondition"
  | aborted => "Aborted"
  | outOfRange => "OutOfRange"
  | unimplemented => "Unimplemented"
  | internal => "Internal"
  | unavailable => "Unavailable"
  | dataLoss => "DataLoss"
  | unauthenticated => "Unauthenticated"

/-- The code with a number, if there is one. -/
def ofNumber? : Int → Option Code
  | .ofNat n => all[n]?
  | .negSucc _ => none

/-- The code with a name.  Names are matched exactly, upper case included. -/
def ofName? (text : String) : Option Code :=
  all.find? fun code => code.name == text

/-- Success is the one code that is not a failure. -/
def isOk (code : Code) : Bool :=
  code == ok

/-- Codes are ordered by their numbers. -/
instance : Ord Code where
  compare a b := compare a.number b.number

theorem mem_all (code : Code) : code ∈ all := by
  cases code <;> decide

theorem ofNumber?_number (code : Code) : ofNumber? code.number = some code := by
  cases code <;> rfl

theorem ofName?_name (code : Code) : ofName? code.name = some code := by
  cases code <;> decide

@[simp] theorem isOk_iff (code : Code) : code.isOk = true ↔ code = ok := by
  simp [isOk]

end Code

end Ferry
