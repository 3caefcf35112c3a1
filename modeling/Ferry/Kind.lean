import Ferry.Code

/-!
# Exception kinds

A host exception belongs to one of seven kinds.  Each kind has the name the host gives its class
and the code a status gets when an exception of the kind is captured.  For some kinds that code is
*native*: the kind says as much as the code does, so a message need not repeat it.

Main statements: every failure code has a kind and success has none (`Kind.ofCode?_eq_none_iff`);
a native code is the code used on capture (`Kind.code_of_nativeCode?`).
-/

namespace Ferry

/-- Category of a host exception. -/
inductive Kind where
  | value
  | lookup
  | type
  | precondition
  | notImplemented
  | assertion
  | generic
  deriving DecidableEq, Inhabited

namespace Kind

/-- The kinds in the order of the host's table. -/
def all : List Kind :=
  [value, lookup, type, precondition, notImplemented, assertion, generic]

/-- The host's class name. -/
def name : Kind → String
  | value => "ValueError"
  | lookup => "LookupError"
  | type => "TypeError"
  | precondition => "PreconditionError"
  | notImplemented => "NotImplementedError"
  | assertion => "AssertionError"
  | generic => "Exception"

/-- The word for a kind in diagnostic text. -/
def label : Kind → String
  | value => "Value"
  | lookup => "NotFound"
  | type => "Type"
  | precondition => "Precondition"
  | notImplemented => "NotImplemented"
  | assertion => "Assertion"
  | generic => "Generic"

/-- The code of a status that captures an exception of the kind. -/
def code : Kind → Code
  | value => .invalidArgument
  | lookup => .notFound
  | type => .invalidArgument
  | precondition => .failedPrecondition
  | notImplemented => .unimplemented
  | assertion => .internal
  | generic => .unknown

/-- Whether the kind's code is its own natural code. -/
def isNative : Kind → Bool
  | value | lookup | precondition | notImplemented => true
  | type | assertion | generic => false

/-- The code that the kind alone implies, if there is an obvious one. -/
def nativeCode? (kind : Kind) : Option Code :=
  if kind.isNative then some kind.code else none

/-- The kind raised for a failed status when nothing more specific is known. -/
def fallback : Kind :=
  value

/-- The kind that stands for a code.  Success stands for no exception. -/
def ofCode? : Code → Option Kind
  | .ok => none
  | .unimplemented => some notImplemented
  | _ => some fallback

/-- The kind of the exception made from a code alone. -/
def ofCode (code : Code) : Kind :=
  (ofCode? code).getD fallback

/-- The kind with a class name. -/
def ofName? (text : String) : Option Kind :=
  all.find? fun kind => kind.name == text

/-- The place of a kind in the host's table. -/
def index (kind : Kind) : Nat :=
  all.idxOf kind

theorem mem_all (kind : Kind) : kind ∈ all := by
  cases kind <;> decide

theorem ofName?_name (kind : Kind) : ofName? kind.name = some kind := by
  cases kind <;> decide

theorem code_ne_ok (kind : Kind) : kind.code ≠ .ok := by
  cases kind <;> decide

theorem isOk_code (kind : Kind) : kind.code.isOk = false :=
  Bool.eq_false_iff.mpr (mt (Code.isOk_iff kind.code).mp kind.code_ne_ok)

theorem code_of_nativeCode? {kind : Kind} {code : Code} (native : kind.nativeCode? = some code) :
    kind.code = code := by
  unfold nativeCode? at native
  split at native
  · exact Option.some.inj native
  · cases native

theorem ofCode?_eq_none_iff (code : Code) : ofCode? code = none ↔ code = .ok := by
  cases code <;> decide

end Kind

end Ferry
