import Ferry.Script.Session

/-!
# Commands on outlines
-/

namespace Ferry.Script

/-- A command on outline variables. -/
inductive OutlineCommand where
  | new (c : String)
  | ofException (e c : String)
  /-- Adds a link several times. -/
  | push (c : String) (kind : Kind) (message : String) (count : Nat)
  | clone (c target : String)
  | display (c : String)
  | same (c other : String)
  /-- Builds the exceptions and binds the outermost to a variable if one is named. -/
  | build (c : String) (e : Option String)

namespace OutlineCommand

/-- Runs a command on outlines. -/
def run (session : Session) : OutlineCommand → Session × Reply
  | new c => (session.bindOutline c .empty, .answer (.outline (.of .empty)))
  | ofException e c =>
    session.onException e fun ref =>
      let outline := Outline.ofException session.holdings.exceptions ref
      (session.bindOutline c outline, .answer (.outline (.of outline)))
  | push c kind message count =>
    session.onOutline c fun outline =>
      let pushed := outline.pushMany kind message count
      (session.bindOutline c pushed, .answer (.place (pushed.size - 1)))
  | clone c target =>
    session.onOutline c fun outline => (session.bindOutline target outline, .answer .nothing)
  | display c => session.onOutline c fun outline => (session, .answer (.outline (.of outline)))
  | same c other =>
    session.onOutline c fun a => session.onOutline other fun b =>
      (session, .answer (.flag (a == b)))
  | build c e =>
    session.onOutline c fun outline =>
      let built := outline.build session.holdings.exceptions
      let after := session.withGraph built.1
      match built.2 with
      | none => (after, .answer .nothing)
      | some ref => after.showAndKeep e ref

end OutlineCommand

end Ferry.Script
