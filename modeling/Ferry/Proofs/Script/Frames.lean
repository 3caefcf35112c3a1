import Ferry.Script.Run

/-!
# What commands leave alone

Most commands leave most of a session alone.  Its *fixtures* are the bridges, the names of the
counters, and the handler tables of its own.  Three commands change one of these: a payload that is
made with a counter may open one, and a handler is registered with a bridge or in a table.  Status
variables change with commands on statuses, and with those commands on objects and bridges that make
a status or use one up.

Main statements: `Command.counters_run`, `Command.bridges_run` and `Command.tables_run`, that each
of the fixtures has one command only that changes it; and `ObjectCommand.statuses_run` and
`BridgeCommand.statuses_run`, which commands leave the status variables alone.

## Sections

1. What the parts of commands leave alone.
2. Commands that leave status variables and fixtures alone.
3. Status variables.
4. Fixtures.
5. What changes one fixture leaves the others alone.
-/

namespace Ferry.Script

namespace Session

/-! ## §1 What the parts of commands leave alone -/

/-- The bridges, the counters and the handler tables of a session. -/
def fixtures (s : Session) : List Bridge × KeyedList Nat × KeyedList HandlerTable :=
  (s.bridges, s.counters, s.tables)

/-- The status variables of a session and its fixtures. -/
def frame (s : Session) :
    KeyedList Status × List Bridge × KeyedList Nat × KeyedList HandlerTable :=
  (s.statuses, s.fixtures)

theorem statuses_of_frame {s s' : Session} (hframe : s'.frame = s.frame) :
    s'.statuses = s.statuses :=
  congrArg Prod.fst hframe

theorem fixtures_of_frame {s s' : Session} (hframe : s'.frame = s.frame) :
    s'.fixtures = s.fixtures :=
  congrArg Prod.snd hframe

section Parts

variable {s : Session} {name : String} {α β : Type} (part : Session → β)

/-- A command that looks a value up leaves alone what its use of the value leaves alone. -/
theorem given_same {found : Option α} {act : α → Session × Reply}
    (hact : ∀ value, part (act value).1 = part s) :
    part (s.given name found act).1 = part s := by
  cases found with
  | none => rfl
  | some value => exact hact value

theorem givenOptional_same {among : KeyedList α} {optional : Option String}
    {act : Option α → Session × Reply} (hact : ∀ found, part (act found).1 = part s) :
    part (s.givenOptional among optional act).1 = part s := by
  cases optional with
  | none => exact hact none
  | some key => exact given_same part fun value => hact (some value)

end Parts

theorem frame_withHoldings (s : Session) (h : Holdings) : (s.withHoldings h).frame = s.frame := rfl

theorem frame_keepException (s : Session) (name : Option String) (e : ExceptionRef) :
    (s.keepException name e).frame = s.frame := by
  cases name <;> rfl

theorem frame_showObject (s : Session) (result : Except Fault Object) :
    (s.showObject result).1.frame = s.frame := by
  cases result <;> rfl

theorem frame_showOptionalObject (s : Session) (result : Except Fault (Option Object)) :
    (s.showOptionalObject result).1.frame = s.frame := by
  rcases result with fault | none | object <;> rfl

end Session

open Session

theorem BridgeCommand.frame_showBuilt (s : Session) (e : Option String)
    (result : Except Fault ExceptionRef) : (showBuilt s e result).1.frame = s.frame := by
  cases result with
  | error fault => rfl
  | ok ref => exact frame_keepException s e ref

theorem BridgeCommand.frame_showRaised (s : Session) (e : Option String)
    (raised : Bridge.Raised) : (showRaised s e raised).1.frame = s.frame := by
  cases raised with
  | nothing | fault _ => rfl
  | exception ref => exact frame_keepException s e ref

/-- A command on objects is carried out, unless its registry does not exist. -/
theorem ObjectCommand.run_cases (s : Session) (command : ObjectCommand) :
    command.run s = perform s command ∨ ∃ name, command.run s = (s, .unbound name) := by
  unfold ObjectCommand.run
  split
  · exact Or.inl rfl
  · split
    · exact Or.inl rfl
    · exact Or.inr ⟨_, rfl⟩

/-! ## §2 Commands that leave status variables and fixtures alone -/

/-- Whether a command on objects makes a status an object, writes an object to a slot or takes one
out. -/
def ObjectCommand.changesStatuses : ObjectCommand → Bool
  | .new _ (.status _) | .write _ _ _ _ | .takeOut _ _ _ _ => true
  | _ => false

/-- Whether a command on a bridge makes a status or uses one up. -/
def BridgeCommand.changesStatuses : BridgeCommand → Bool
  | .capture _ _ _ | .carryRaw _ _ _ _ _ | .carryCause _ _ _ _ _ | .hop _ _ _ _ _
  | .reconstruct _ _ _ | .raise _ _ _ => true
  | _ => false

/-- Whether a command on a bridge or a table registers a handler. -/
def BridgeCommand.registers : BridgeCommand → Bool
  | .register _ _ _ | .registerIn _ _ _ => true
  | _ => false

theorem PayloadCommand.frame_run (s : Session) {command : PayloadCommand}
    (hquiet : ∀ p bytes counter, command ≠ .counted p bytes counter) :
    (command.run s).1.frame = s.frame := by
  cases command with
  | new _ _ | tallies => rfl
  | counted p bytes counter => exact absurd rfl (hquiet p bytes counter)
  | alike _ _ => exact given_same frame fun _ => given_same frame fun _ => rfl
  | _ => exact given_same frame fun _ => rfl

theorem ExceptionCommand.frame_run (s : Session) (command : ExceptionCommand) :
    (command.run s).1.frame = s.frame := by
  cases command with
  | new _ _ _ => rfl
  | extend e target edits move =>
    refine given_same frame fun ref => ?_
    cases move <;>
      exact givenOptional_same frame fun _ => givenOptional_same frame fun _ =>
        givenOptional_same frame fun _ => rfl
  | same _ _ => exact given_same frame fun _ => given_same frame fun _ => rfl
  | _ => exact given_same frame fun _ => rfl

theorem OutlineCommand.frame_run (s : Session) (command : OutlineCommand) :
    (command.run s).1.frame = s.frame := by
  cases command with
  | new _ => rfl
  | same _ _ => exact given_same frame fun _ => given_same frame fun _ => rfl
  | build c e =>
    refine given_same frame fun outline => ?_
    dsimp only
    split
    · rfl
    · exact frame_keepException _ e _
  | _ => exact given_same frame fun _ => rfl

theorem ObjectCommand.frame_perform (s : Session) {command : ObjectCommand}
    (hquiet : command.changesStatuses = false) : (perform s command).1.frame = s.frame := by
  cases command with
  | new o source =>
    cases source with
    | status name => cases hquiet
    | number _ | text _ | bytes _ => rfl
  | counts | bindHandle _ _ => rfl
  | sameHandle _ _ => exact given_same frame fun _ => given_same frame fun _ => rfl
  | borrow h r type | fetch h r type | consume p r =>
    exact given_same frame fun _ => frame_showObject _ _
  | release h r | validate h r =>
    refine given_same frame fun _ => ?_
    split <;> rfl
  | decode bytes r h =>
    simp only [perform]
    split
    · rfl
    · cases h <;> rfl
  | write name key r o | takeOut name key r type => cases hquiet
  | read name key r type => exact given_same frame fun _ => frame_showOptionalObject _ _
  | throughToken o r =>
    refine given_same frame fun ref => ?_
    dsimp only
    rw [frame_showObject, frame_withHoldings]
  | _ => exact given_same frame fun _ => rfl

theorem BridgeCommand.frame_run (s : Session) {command : BridgeCommand}
    (hquiet : command.changesStatuses = false) (hfixed : command.registers = false) :
    (command.run s).1.frame = s.frame := by
  cases command with
  | capture _ _ _ | carryRaw _ _ _ _ _ | carryCause _ _ _ _ _ | hop _ _ _ _ _
  | reconstruct _ _ _ | raise _ _ _ => cases hquiet
  | register _ _ _ | registerIn _ _ _ => cases hfixed
  | classify b name | format b name kind =>
    exact given_same frame fun _ => given_same frame fun _ => rfl
  | plain b name e =>
    exact given_same frame fun _ => given_same frame fun _ => frame_keepException _ e _
  | unpack b p e =>
    exact given_same frame fun _ => given_same frame fun _ => frame_showBuilt _ e _
  | config b | handlers b key => exact given_same frame fun _ => rfl
  | runIn t key b p name e =>
    refine given_same frame fun _ => ?_
    dsimp only
    split
    · rfl
    · exact given_same frame fun _ => given_same frame fun _ => frame_showBuilt _ e _

/-! ## §3 Status variables -/

theorem PayloadCommand.statuses_run (s : Session) (command : PayloadCommand) :
    (command.run s).1.statuses = s.statuses := by
  by_cases hcounted : ∃ p bytes counter, command = .counted p bytes counter
  · obtain ⟨p, bytes, counter, rfl⟩ := hcounted
    show (counterOf s counter).1.statuses = s.statuses
    unfold counterOf
    split <;> rfl
  · simp only [not_exists] at hcounted
    exact statuses_of_frame (frame_run s hcounted)

theorem ObjectCommand.statuses_run (s : Session) {command : ObjectCommand}
    (hquiet : command.changesStatuses = false) : (command.run s).1.statuses = s.statuses := by
  rcases command.run_cases s with hrun | ⟨name, hrun⟩
  · rw [hrun]
    exact statuses_of_frame (frame_perform s hquiet)
  · rw [hrun]

theorem BridgeCommand.statuses_run (s : Session) {command : BridgeCommand}
    (hquiet : command.changesStatuses = false) : (command.run s).1.statuses = s.statuses := by
  cases command with
  | register b key handler =>
    refine given_same Session.statuses fun _ => ?_
    split <;> rfl
  | registerIn t key handler =>
    simp only [BridgeCommand.run]
    split <;> rfl
  | _ => exact statuses_of_frame (frame_run s hquiet rfl)

/-! ## §4 Fixtures -/

theorem StatusCommand.fixtures_run (s : Session) (command : StatusCommand) :
    (command.run s).1.fixtures = s.fixtures := by
  cases command with
  | new _ _ _ | ok _ => rfl
  | setPayload _ _ _ | alike _ _ =>
    exact given_same fixtures fun _ => given_same fixtures fun _ => rfl
  | take name key p =>
    refine given_same fixtures fun status => ?_
    dsimp only
    split
    · rfl
    · cases p <;> rfl
  | get name key p =>
    refine given_same fixtures fun status => ?_
    split <;> rfl
  | _ => exact given_same fixtures fun _ => rfl

theorem ObjectCommand.fixtures_run (s : Session) (command : ObjectCommand) :
    (command.run s).1.fixtures = s.fixtures := by
  have hperform : (perform s command).1.fixtures = s.fixtures := by
    cases command with
    | new o source =>
      cases source with
      | status name => exact given_same fixtures fun _ => rfl
      | number _ | text _ | bytes _ => rfl
    | write name key r o =>
      cases o with
      | none => exact given_same fixtures fun _ => rfl
      | some o => exact given_same fixtures fun _ => given_same fixtures fun _ => rfl
    | takeOut name key r type =>
      refine given_same fixtures fun status => ?_
      exact (fixtures_of_frame (frame_showOptionalObject (s.updateStatus name (_, _)) _)).trans rfl
    | _ => exact fixtures_of_frame (frame_perform s rfl)
  rcases command.run_cases s with hrun | ⟨name, hrun⟩
  · rw [hrun]
    exact hperform
  · rw [hrun]

theorem BridgeCommand.fixtures_run (s : Session) {command : BridgeCommand}
    (hfixed : command.registers = false) : (command.run s).1.fixtures = s.fixtures := by
  cases command with
  | capture b e name => exact given_same fixtures fun _ => given_same fixtures fun _ => rfl
  | carryRaw b code message e name | carryCause b code message e name =>
    exact given_same fixtures fun _ => givenOptional_same fixtures fun _ => rfl
  | reconstruct b name e =>
    refine given_same fixtures fun _ => given_same fixtures fun _ => ?_
    dsimp only
    split
    · rfl
    · rfl
    · exact (fixtures_of_frame (frame_keepException _ e _)).trans rfl
  | raise b name e =>
    refine given_same fixtures fun _ => given_same fixtures fun _ => ?_
    exact (fixtures_of_frame (frame_showRaised _ e _)).trans rfl
  | hop b name target step count =>
    refine given_same fixtures fun _ => given_same fixtures fun _ => ?_
    dsimp only
    split <;> rfl
  | _ => exact fixtures_of_frame (frame_run s rfl hfixed)

/-! ## §5 What changes one fixture leaves the others alone -/

/-- A payload that is made with a counter leaves bridges and tables alone. -/
theorem Session.fixtures_counted (s : Session) (p : String) (bytes : List UInt8)
    (counter : String) :
    (((Command.payload (.counted p bytes counter)).run s).1.bridges = s.bridges) ∧
      ((Command.payload (.counted p bytes counter)).run s).1.tables = s.tables := by
  have hcounter : (PayloadCommand.counterOf s counter).1.bridges = s.bridges ∧
      (PayloadCommand.counterOf s counter).1.tables = s.tables := by
    unfold PayloadCommand.counterOf
    split <;> exact ⟨rfl, rfl⟩
  exact hcounter

/-- A handler that is registered with a bridge leaves counters and tables alone. -/
theorem Session.fixtures_register (s : Session) (b : Nat) (key : String) (handler : HandlerName) :
    (((Command.bridge (.register b key handler)).run s).1.counters = s.counters) ∧
      ((Command.bridge (.register b key handler)).run s).1.tables = s.tables := by
  simp only [Command.run, BridgeCommand.run, onBridge]
  cases s.bridge? b with
  | none => exact ⟨rfl, rfl⟩
  | some bridge =>
    simp only [given]
    split <;> exact ⟨rfl, rfl⟩

/-- A handler that is registered in a table leaves bridges and counters alone. -/
theorem Session.fixtures_registerIn (s : Session) (t key : String) (handler : HandlerName) :
    (((Command.bridge (.registerIn t key handler)).run s).1.bridges = s.bridges) ∧
      ((Command.bridge (.registerIn t key handler)).run s).1.counters = s.counters := by
  simp only [Command.run, BridgeCommand.run]
  split <;> exact ⟨rfl, rfl⟩

/-- The commands that change fixtures. -/
theorem Command.fixtures_cases (s : Session) (command : Command) :
    (command.run s).1.fixtures = s.fixtures ∨
      (∃ p bytes counter, command = .payload (.counted p bytes counter)) ∨
      (∃ b key handler, command = .bridge (.register b key handler)) ∨
      ∃ t key handler, command = .bridge (.registerIn t key handler) := by
  cases command with
  | status command => exact Or.inl (command.fixtures_run s)
  | payload command =>
    by_cases hcounted : ∃ p bytes counter, command = .counted p bytes counter
    · obtain ⟨p, bytes, counter, rfl⟩ := hcounted
      exact Or.inr (Or.inl ⟨p, bytes, counter, rfl⟩)
    · simp only [not_exists] at hcounted
      exact Or.inl (fixtures_of_frame (command.frame_run s hcounted))
  | object command => exact Or.inl (command.fixtures_run s)
  | exception command => exact Or.inl (fixtures_of_frame (command.frame_run s))
  | outline command => exact Or.inl (fixtures_of_frame (command.frame_run s))
  | bridge command =>
    cases command with
    | register b key handler => exact Or.inr (Or.inr (Or.inl ⟨b, key, handler, rfl⟩))
    | registerIn t key handler => exact Or.inr (Or.inr (Or.inr ⟨t, key, handler, rfl⟩))
    | _ => exact Or.inl (BridgeCommand.fixtures_run s rfl)

/-- Only a payload that is made with a counter may open one. -/
theorem Command.counters_run (s : Session) {command : Command}
    (hquiet : ∀ p bytes counter, command ≠ .payload (.counted p bytes counter)) :
    (command.run s).1.counters = s.counters := by
  rcases command.fixtures_cases s with
    hsame | ⟨p, bytes, counter, rfl⟩ | ⟨b, key, handler, rfl⟩ | ⟨t, key, handler, rfl⟩
  · exact congrArg (fun fixtures => fixtures.2.1) hsame
  · exact absurd rfl (hquiet p bytes counter)
  · exact (fixtures_register s b key handler).1
  · exact (fixtures_registerIn s t key handler).2

/-- Bridges change only when handlers are registered with them. -/
theorem Command.bridges_run (s : Session) {command : Command}
    (hquiet : ∀ b key handler, command ≠ .bridge (.register b key handler)) :
    (command.run s).1.bridges = s.bridges := by
  rcases command.fixtures_cases s with
    hsame | ⟨p, bytes, counter, rfl⟩ | ⟨b, key, handler, rfl⟩ | ⟨t, key, handler, rfl⟩
  · exact congrArg (fun fixtures => fixtures.1) hsame
  · exact (fixtures_counted s p bytes counter).1
  · exact absurd rfl (hquiet b key handler)
  · exact (fixtures_registerIn s t key handler).1

/-- Tables change only when handlers are registered in them. -/
theorem Command.tables_run (s : Session) {command : Command}
    (hquiet : ∀ t key handler, command ≠ .bridge (.registerIn t key handler)) :
    (command.run s).1.tables = s.tables := by
  rcases command.fixtures_cases s with
    hsame | ⟨p, bytes, counter, rfl⟩ | ⟨b, key, handler, rfl⟩ | ⟨t, key, handler, rfl⟩
  · exact congrArg (fun fixtures => fixtures.2.2) hsame
  · exact (fixtures_counted s p bytes counter).2
  · exact (fixtures_register s b key handler).2
  · exact absurd rfl (hquiet t key handler)

end Ferry.Script
