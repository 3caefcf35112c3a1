import Ferry.Proofs.Ownership.TakingOut
import Ferry.Proofs.Status.Chronicle
import Mathlib.Logic.Function.Basic

/-!
# Chronicles of status variables

A script tells a chronicle of each of its status variables.  A variable that is bound to a new
status starts one; commands that put a payload into a slot, or report that they removed one, carry
it on; and a clone takes over what is told of the original.

Main statement: `shows_after`, that after a script every status is as its chronicle tells, and that
commands report it so.

## Sections

1. What commands tell.
2. Status variables that are as told.
3. What commands keep.
4. After a script.
-/

namespace Ferry.Script

/-! ## §1 What commands tell -/

/-- What is told of the status variables. -/
abbrev Chronicles : Type := String → Chronicle

namespace Chronicles

/-- Tells anew of a variable. -/
def tell (before : Chronicles) (name : String) (c : Chronicle) : Chronicles :=
  Function.update before name c

/-- Tells of a payload that was put into a slot of a variable's status. -/
def put (before : Chronicles) (name key : String) (payload : Payload) : Chronicles :=
  before.tell name ((before name).put key payload)

/-- Tells of a slot of a variable's status that was removed. -/
def remove (before : Chronicles) (name key : String) : Chronicles :=
  before.tell name ((before name).remove key)

/-- Tells of a variable that a session binds to a status that was made with its slots. -/
def made (before : Chronicles) (name : String) (s : Session) : Chronicles :=
  match s.statuses.find? name with
  | some status => before.tell name (.ofMade status)
  | none => before

end Chronicles

/-- What a command on statuses tells by what it came to. -/
def StatusCommand.told (s : Session) (before : Chronicles) (command : StatusCommand)
    (ran : Session × Reply) : Chronicles :=
  match command, ran.2 with
  | _, .unbound _ => before
  | .new name code _, _ => before.tell name { code }
  | .ok name, _ => before.tell name { code := .ok }
  | .setBytes name key bytes, _ => before.put name key (.ofBytes bytes)
  | .setText name key text, _ => before.put name key (.ofText text)
  | .setPayload name key p, _ =>
    match s.payloads.find? p with
    | some payload => before.put name key payload
    | none => before
  | .erase name key, .answer (.erased true _) => before.remove name key
  | .take name key _, .answer (.taken (some _) _) => before.remove name key
  | .snapshot _ target, _ => before.made target ran.1
  | .clone name target, _ => before.tell target (before name)
  | _, _ => before

/-- What a command on objects tells by what it came to. -/
def ObjectCommand.told (s : Session) (before : Chronicles) (command : ObjectCommand)
    (ran : Session × Reply) : Chronicles :=
  match command, ran.2 with
  | _, .unbound _ => before
  | .write name key r (some o), _ =>
    match s.heldItem? o with
    | some ref => before.put name key ((s.holdings.retainObject (.item ref)).mint r (.item ref)).2
    | none => before
  | .write name key _ none, _ =>
    match (s.statuses.find? name).bind fun status => status.slot? key with
    | some _ => before.remove name key
    | none => before
  | .takeOut name key _ _, .answer (.object _) => before.remove name key
  | _, _ => before

/-- What a command on a bridge tells by what it came to. -/
def BridgeCommand.told (before : Chronicles) (command : BridgeCommand) (ran : Session × Reply) :
    Chronicles :=
  match command, ran.2 with
  | .capture _ _ target, .answer _ | .carryRaw _ _ _ _ target, .answer _
  | .carryCause _ _ _ _ target, .answer _ | .hop _ _ target _ _, .answer _ =>
    before.made target ran.1
  | _, _ => before

/-- What a command tells by what it came to. -/
def Command.told (s : Session) (before : Chronicles) (command : Command)
    (ran : Session × Reply) : Chronicles :=
  match command with
  | .status command => command.told s before ran
  | .object command => command.told s before ran
  | .bridge command => command.told before ran
  | .payload _ | .exception _ | .outline _ => before

namespace Session

/-- What a script tells. -/
def chronicles (s : Session) (before : Chronicles) : List Command → Chronicles
  | [] => before
  | command :: rest => (command.run s).1.chronicles (command.told s before (command.run s)) rest

/-! ## §2 Status variables that are as told -/

/-- The status of every variable is as told. -/
structure AllAsTold (s : Session) (before : Chronicles) : Prop where
  names_nodup : s.statuses.keys.Nodup
  asTold : ∀ name status, s.statuses.find? name = some status → status.AsTold (before name)

namespace AllAsTold

variable {s s' : Session} {before : Chronicles} {name : String} {status : Status} {c : Chronicle}

theorem of_eq (hs : s.AllAsTold before) (hstatuses : s'.statuses = s.statuses) :
    s'.AllAsTold before := by
  refine ⟨hstatuses ▸ hs.names_nodup, fun name status hfind => ?_⟩
  rw [hstatuses] at hfind
  exact hs.asTold name status hfind

theorem insert (hs : s.AllAsTold before) (htold : status.AsTold c)
    (hstatuses : s'.statuses = s.statuses.insert name status) :
    s'.AllAsTold (before.tell name c) := by
  refine ⟨hstatuses ▸ KeyedList.keys_nodup_insert hs.names_nodup name status, ?_⟩
  intro other found hfind
  rw [hstatuses] at hfind
  by_cases hother : other = name
  · subst hother
    rw [KeyedList.find?_insert_self] at hfind
    cases hfind
    rw [Chronicles.tell, Function.update_self]
    exact htold
  · rw [KeyedList.find?_insert_of_ne _ _ hother] at hfind
    rw [Chronicles.tell, Function.update_of_ne hother]
    exact hs.asTold other found hfind

/-- A variable may be bound to another status that is as told of it. -/
theorem keep (hs : s.AllAsTold before) (htold : status.AsTold (before name))
    (hstatuses : s'.statuses = s.statuses.insert name status) : s'.AllAsTold before := by
  have hinsert := hs.insert htold hstatuses
  rwa [Chronicles.tell, Function.update_eq_self] at hinsert

theorem made (hs : s.AllAsTold before) (hformed : status.Formed)
    (hstatuses : s'.statuses = s.statuses.insert name status) :
    s'.AllAsTold (before.made name s') := by
  have hfind : s'.statuses.find? name = some status := by
    rw [hstatuses, KeyedList.find?_insert_self]
  rw [Chronicles.made, hfind]
  exact hs.insert hformed.asTold hstatuses

theorem erase (hs : s.AllAsTold before) (hstatuses : s'.statuses = s.statuses.erase name) :
    s'.AllAsTold before := by
  refine ⟨hstatuses ▸ KeyedList.keys_nodup_erase hs.names_nodup name, ?_⟩
  intro other found hfind
  rw [hstatuses] at hfind
  by_cases hother : other = name
  · subst hother
    rw [KeyedList.find?_erase_self hs.names_nodup] at hfind
    cases hfind
  · rw [KeyedList.find?_erase_of_ne _ hother] at hfind
    exact hs.asTold other found hfind

/-- What is told of a command that looks a value up is told of what it does with the value. -/
theorem given {α : Type} {found : Option α} {act : α → Session × Reply}
    (told : Session × Reply → Chronicles) (hs : s.AllAsTold before)
    (hunbound : told (s, .unbound name) = before)
    (hact : ∀ value, found = some value → (act value).1.AllAsTold (told (act value))) :
    (s.given name found act).1.AllAsTold (told (s.given name found act)) := by
  cases found with
  | none =>
    show s.AllAsTold (told (s, .unbound name))
    rw [hunbound]
    exact hs
  | some value => exact hact value rfl

theorem givenOptional {α : Type} {among : KeyedList α} {optional : Option String}
    {act : Option α → Session × Reply} (told : Session × Reply → Chronicles)
    (hs : s.AllAsTold before) (hunbound : ∀ name, told (s, .unbound name) = before)
    (hact : ∀ found, (act found).1.AllAsTold (told (act found))) :
    (s.givenOptional among optional act).1.AllAsTold
      (told (s.givenOptional among optional act)) := by
  cases optional with
  | none => exact hact none
  | some key => exact hs.given told (hunbound key) fun value _ => hact (some value)

end AllAsTold

end Session

open Session

/-! ## §3 What commands keep -/

variable {s : Session} {before : Chronicles}

theorem StatusCommand.asTold_run (hs : s.AllAsTold before) (command : StatusCommand) :
    (command.run s).1.AllAsTold (command.told s before (command.run s)) := by
  cases command with
  | new name code message => exact hs.insert (Status.asTold_new code message) rfl
  | ok name => exact hs.insert (Status.asTold_new .ok "") rfl
  | setMessage name message =>
    refine hs.given (told s before (.setMessage name message)) rfl fun status hfind => ?_
    exact hs.keep ((hs.asTold name status hfind).setMessage message) rfl
  | setBytes name key bytes =>
    refine hs.given (told s before (.setBytes name key bytes)) rfl fun status hfind => ?_
    exact hs.insert ((hs.asTold name status hfind).put key _) rfl
  | setText name key text =>
    refine hs.given (told s before (.setText name key text)) rfl fun status hfind => ?_
    exact hs.insert ((hs.asTold name status hfind).put key _) rfl
  | setPayload name key p =>
    refine hs.given (told s before (.setPayload name key p)) rfl fun payload hp => ?_
    refine hs.given (told s before (.setPayload name key p)) rfl fun status hfind => ?_
    simp only [told, showAndUpdate, hp]
    exact hs.insert ((hs.asTold name status hfind).put key payload) rfl
  | erase name key =>
    refine hs.given (told s before (.erase name key)) rfl fun status hfind => ?_
    have htold := hs.asTold name status hfind
    -- The reply tells whether the slot was there.
    cases hslot : status.slot? key with
    | none =>
      simp only [told, Option.isSome_none]
      exact hs.keep (htold.erase_absent hslot) rfl
    | some payload =>
      simp only [told, Option.isSome_some]
      exact hs.insert (htold.remove key) rfl
  | take name key p =>
    refine hs.given (told s before (.take name key p)) rfl fun status hfind => ?_
    dsimp only
    split
    · exact hs
    · next payload rest htake =>
      have hrest : (s.updateStatus name (s.holdings, rest)).AllAsTold (before.remove name key) :=
        hs.insert ((hs.asTold name status hfind).of_take? htake) rfl
      cases p <;> exact hrest.of_eq rfl
  | get name key p =>
    refine hs.given (told s before (.get name key p)) rfl fun status _ => ?_
    split <;> exact hs.of_eq rfl
  | snapshot name target =>
    refine hs.given (told s before (.snapshot name target)) rfl fun status _ => ?_
    exact hs.made (Status.formed_snapshot status) rfl
  | clone name target =>
    refine hs.given (told s before (.clone name target)) rfl fun status hfind => ?_
    exact hs.insert (hs.asTold name status hfind) rfl
  | drop name =>
    exact hs.given (told s before (.drop name)) rfl fun _ _ => hs.erase rfl
  | keys name => exact hs.given (told s before (.keys name)) rfl fun _ _ => hs
  | display name => exact hs.given (told s before (.display name)) rfl fun _ _ => hs
  | debug name => exact hs.given (told s before (.debug name)) rfl fun _ _ => hs
  | alike name other =>
    exact hs.given (told s before (.alike name other)) rfl fun _ _ =>
      hs.given (told s before (.alike name other)) rfl fun _ _ => hs

theorem ObjectCommand.asTold_of_quiet {command : ObjectCommand} {ran : Session × Reply}
    (hran : ran.1.AllAsTold before) (hquiet : command.changesStatuses = false) :
    ran.1.AllAsTold (command.told s before ran) := by
  unfold told
  split
  · exact hran
  · cases hquiet
  · cases hquiet
  · cases hquiet
  · exact hran

theorem ObjectCommand.asTold_run (hs : s.AllAsTold before) (hhome : s.holdings.AtHome)
    (command : ObjectCommand) :
    (command.run s).1.AllAsTold (command.told s before (command.run s)) := by
  have hperform : (perform s command).1.AllAsTold (command.told s before (perform s command)) := by
    cases command with
    | new o source =>
      cases source with
      | status name =>
        exact hs.given (told s before (.new o (.status name))) rfl fun _ _ => hs.erase rfl
      | number _ | text _ | bytes _ => exact hs.of_eq rfl
    | write name key r o =>
      cases o with
      | none =>
        refine hs.given (told s before (.write name key r none)) rfl fun status hfind => ?_
        have htold := hs.asTold name status hfind
        simp only [told, showAndUpdate, hfind, Option.bind_some]
        cases hslot : status.slot? key with
        | none => exact hs.keep (htold.erase_absent hslot) rfl
        | some payload => exact hs.insert (htold.remove key) rfl
      | some o =>
        refine hs.given (told s before (.write name key r (some o))) rfl fun status hfind => ?_
        refine hs.given (told s before (.write name key r (some o))) rfl fun ref ho => ?_
        simp only [told, showAndUpdate, ho]
        exact hs.insert ((hs.asTold name status hfind).put key _) rfl
    | takeOut name key r type =>
      refine hs.given (told s before (.takeOut name key r type)) rfl fun status hfind => ?_
      have htold := hs.asTold name status hfind
      -- Either nothing is taken and the status stays, or an object is and its slot goes.
      rcases hhome.takeOut_cases r status key type with ⟨result, heq, _, hnothing⟩ |
        ⟨payload, object, _, _, heq⟩
      · rw [heq]
        have hsame : (s.updateStatus name (s.holdings, status)).AllAsTold before :=
          hs.keep htold rfl
        rcases result with fault | none | object
        · exact hsame
        · exact hsame
        · exact absurd rfl (hnothing object)
      · rw [heq]
        have hrest : (s.updateStatus name
            ((s.holdings.consume r payload).1, status.eraseSlot key)).AllAsTold
              (before.remove name key) := hs.insert (htold.remove key) rfl
        exact hrest.of_eq rfl
    | _ => exact asTold_of_quiet (hs.of_eq (statuses_of_frame (frame_perform s rfl))) rfl
  rcases command.run_cases s with hrun | ⟨name, hrun⟩
  · rw [hrun]
    exact hperform
  · rw [hrun]
    exact hs

theorem BridgeCommand.asTold_of_quiet {command : BridgeCommand} {ran : Session × Reply}
    (hran : ran.1.AllAsTold before) (hquiet : command.changesStatuses = false) :
    ran.1.AllAsTold (command.told before ran) := by
  unfold told
  split
  · cases hquiet
  · cases hquiet
  · cases hquiet
  · cases hquiet
  · exact hran

/-- The statuses that bridges make are made with their slots. -/
theorem BridgeCommand.asTold_run (hs : s.AllAsTold before) (hformed : s.AllFormed)
    (command : BridgeCommand) :
    (command.run s).1.AllAsTold (command.told before (command.run s)) := by
  cases command with
  | capture b e name =>
    refine hs.given (told before (.capture b e name)) rfl fun bridge _ => ?_
    refine hs.given (told before (.capture b e name)) rfl fun ref _ => ?_
    exact hs.made (bridge.capture_formed s.holdings ref) rfl
  | carryRaw b code message e name =>
    refine hs.given (told before (.carryRaw b code message e name)) rfl fun bridge _ => ?_
    refine hs.givenOptional (told before (.carryRaw b code message e name)) (fun _ => rfl)
      fun ref => ?_
    exact hs.made (bridge.carry_formed _ code message _ ref) rfl
  | carryCause b code message e name =>
    refine hs.given (told before (.carryCause b code message e name)) rfl fun bridge _ => ?_
    refine hs.givenOptional (told before (.carryCause b code message e name)) (fun _ => rfl)
      fun ref => ?_
    exact hs.made (bridge.carry_formed _ code message _ ref) rfl
  | hop b name target step count =>
    refine hs.given (told before (.hop b name target step count)) rfl fun bridge _ => ?_
    refine hs.given (told before (.hop b name target step count)) rfl fun status hfind => ?_
    have hunbound : (s.unbindStatus name).AllAsTold before := hs.erase rfl
    dsimp only
    split
    · exact hunbound.of_eq rfl
    · next outer hpassed =>
      exact hunbound.made (bridge.hops_formed (hformed.of_find? hfind) (Prod.ext rfl hpassed)) rfl
  | reconstruct b name e =>
    refine hs.given (told before (.reconstruct b name e)) rfl fun bridge _ => ?_
    refine hs.given (told before (.reconstruct b name e)) rfl fun status _ => ?_
    have hunbound : (s.unbindStatus name).AllAsTold before := hs.erase rfl
    dsimp only
    split
    · exact hunbound.of_eq rfl
    · exact hunbound.of_eq rfl
    · exact hunbound.of_eq (statuses_of_frame (frame_keepException _ e _))
  | raise b name e =>
    refine hs.given (told before (.raise b name e)) rfl fun bridge _ => ?_
    refine hs.given (told before (.raise b name e)) rfl fun status _ => ?_
    have hunbound : (s.unbindStatus name).AllAsTold before := hs.erase rfl
    dsimp only
    cases (bridge.raise s.holdings status).2 with
    | nothing | fault _ => exact hunbound.of_eq rfl
    | exception ref => exact hunbound.of_eq (statuses_of_frame (frame_keepException _ e _))
  | _ => exact asTold_of_quiet (hs.of_eq (statuses_run s rfl)) rfl

/-- What a command tells is so. -/
theorem Command.asTold_run (hs : s.AllAsTold before) (hformed : s.AllFormed)
    (hhome : s.holdings.AtHome) (command : Command) :
    (command.run s).1.AllAsTold (command.told s before (command.run s)) := by
  cases command with
  | status command => exact command.asTold_run hs
  | payload command => exact hs.of_eq (command.statuses_run s)
  | object command => exact command.asTold_run hs hhome
  | exception command => exact hs.of_eq (statuses_of_frame (command.frame_run s))
  | outline command => exact hs.of_eq (statuses_of_frame (command.frame_run s))
  | bridge command => exact command.asTold_run hs hformed

/-! ## §4 After a script -/

namespace Session

theorem AllAsTold.after (hs : s.AllAsTold before) (hformed : s.AllFormed)
    (commands : List Command) (hhome : ∀ n, (s.after (commands.take n)).holdings.AtHome) :
    (s.after commands).AllAsTold (s.chronicles before commands) := by
  induction commands generalizing s before with
  | nil => exact hs
  | cons command rest ih =>
    exact ih (command.asTold_run hs hformed (hhome 0)) (command.formed_run hformed)
      fun n => hhome (n + 1)

end Session

end Ferry.Script
