import Ferry.Script.BridgeCommand
import Ferry.Script.ExceptionCommand
import Ferry.Script.ObjectCommand
import Ferry.Script.OutlineCommand
import Ferry.Script.PayloadCommand
import Ferry.Script.StatusCommand

/-!
# Running scripts

A script is a row of commands.  A command that fails does not stop the others.  Each command answers
with a reply and with the number of live entries of every registry after it.
-/

namespace Ferry.Script

/-- A command of any family. -/
inductive Command where
  | status (command : StatusCommand)
  | payload (command : PayloadCommand)
  | object (command : ObjectCommand)
  | exception (command : ExceptionCommand)
  | outline (command : OutlineCommand)
  | bridge (command : BridgeCommand)

/-- Runs one command. -/
def Command.run (session : Session) : Command → Session × Reply
  | status command => command.run session
  | payload command => command.run session
  | object command => command.run session
  | exception command => command.run session
  | outline command => command.run session
  | bridge command => command.run session

/-- What one command came to, and the live entries after it. -/
structure Outcome where
  reply : Reply
  live : List Nat
  deriving DecidableEq

namespace Session

/-- The session after a row of commands. -/
def after (session : Session) (commands : List Command) : Session :=
  commands.foldl (fun session command => (command.run session).1) session

theorem after_append (session : Session) (first second : List Command) :
    session.after (first ++ second) = (session.after first).after second :=
  List.foldl_append

/-- What the commands of a row come to, one after the other. -/
def outcomes (session : Session) : List Command → List Outcome
  | [] => []
  | command :: rest =>
    let ran := command.run session
    { reply := ran.2, live := ran.1.holdings.liveCounts } :: outcomes ran.1 rest

end Session

end Ferry.Script
