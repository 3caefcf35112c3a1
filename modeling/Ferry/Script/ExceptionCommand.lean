import Ferry.Script.Session

/-!
# Commands on exceptions
-/

namespace Ferry.Script

/-- What is added to an exception, in the order of the fields.  Links are named by exception
variables. -/
structure Edits where
  cause : Option String := none
  context : Option String := none
  /-- The exception that it was raised from: both links. -/
  raisedFrom : Option String := none
  frame : Option Frame := none

/-- A command on exception variables. -/
inductive ExceptionCommand where
  | new (e : String) (kind : Kind) (message : String)
  /-- Builds on an exception.  With `move` the variable is used up, and otherwise it keeps its
  share. -/
  | extend (e target : String) (edits : Edits) (move : Bool)
  /-- Raises the same kind and message several times, each from the one before. -/
  | deepen (e target : String) (kind : Kind) (message : String) (count : Nat)
  | display (e : String)
  | debug (e : String)
  | same (e other : String)
  | drop (e : String)

namespace ExceptionCommand

/-- The number of texts of a chain that are shown. -/
def chainLimit : Nat := 40

/-- Sets the cause, if one is given.  The given exception keeps its share. -/
def addCause (state : ExceptionGraph × ExceptionRef) :
    Option ExceptionRef → ExceptionGraph × ExceptionRef
  | some cause => ExceptionGraph.setCause (state.1.retain cause) state.2 cause
  | none => state

/-- Sets the context, if one is given. -/
def addContext (state : ExceptionGraph × ExceptionRef) :
    Option ExceptionRef → ExceptionGraph × ExceptionRef
  | some context => ExceptionGraph.setContext (state.1.retain context) state.2 context
  | none => state

/-- Sets both links, if an exception is given. -/
def addOrigin (state : ExceptionGraph × ExceptionRef) :
    Option ExceptionRef → ExceptionGraph × ExceptionRef
  | some origin => ExceptionGraph.raiseFrom (state.1.retain origin) state.2 origin
  | none => state

/-- Adds a frame, if one is given. -/
def addFrame (state : ExceptionGraph × ExceptionRef) :
    Option Frame → ExceptionGraph × ExceptionRef
  | some frame => ExceptionGraph.addFrame state.1 state.2 frame
  | none => state

/-- Raises an exception of a kind and message from another, several times over.  Takes a share of
the exception. -/
def deepenBy (kind : Kind) (message : String) :
    (count : Nat) → ExceptionGraph → ExceptionRef → ExceptionGraph × ExceptionRef
  | 0, g, e => (g, e)
  | count + 1, g, e =>
    let made := ExceptionGraph.create g kind message
    let raised := ExceptionGraph.raiseFrom made.1 made.2 e
    deepenBy kind message count raised.1 raised.2

/-- Runs a command on exceptions. -/
def run (session : Session) : ExceptionCommand → Session × Reply
  | new e kind message =>
    let made := session.holdings.newException kind message
    (session.withHoldings made.1).showAndKeep (some e) made.2
  | extend e target edits move =>
    session.onException e fun ref =>
      let started := if move then session.unbindException e
        else session.withHoldings (session.holdings.retainException ref)
      -- An exception that is moved has no name left to be linked by.
      session.givenOptional started.exceptions edits.cause fun cause =>
        session.givenOptional started.exceptions edits.context fun context =>
          session.givenOptional started.exceptions edits.raisedFrom fun origin =>
            let caused := addCause (started.holdings.exceptions, ref) cause
            let linked := addOrigin (addContext caused context) origin
            let built := addFrame linked edits.frame
            (started.withGraph built.1).showAndKeep (some target) built.2
  | deepen e target kind message count =>
    session.onException e fun ref =>
      let raised := deepenBy kind message count (session.holdings.exceptions.retain ref) ref
      (session.withGraph raised.1).showAndKeep (some target) raised.2
  | display e =>
    session.onException e fun ref =>
      let g := session.holdings.exceptions
      (session, .answer (.exceptionInFull (session.exceptionRecord ref)
        (ExceptionGraph.chainTexts g chainLimit ref) (ExceptionGraph.sourceText? g ref)))
  | debug e =>
    session.onException e fun ref =>
      (session, .answer (.text (ExceptionGraph.debugText session.holdings.exceptions ref)))
  | same e other =>
    session.onException e fun a => session.onException other fun b =>
      (session, .answer (.flag (a == b)))
  | drop e =>
    session.onException e fun ref =>
      ((session.unbindException e).withHoldings (session.holdings.dropException ref),
        .answer .nothing)

end ExceptionCommand

end Ferry.Script
