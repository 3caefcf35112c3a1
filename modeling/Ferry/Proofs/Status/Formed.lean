import Ferry.Proofs.KeyedOrder
import Ferry.Proofs.Script.Frames

/-!
# How statuses come about

A status is made of a code and a message.  From then on its message may be replaced, payloads may be
put into slots, and slots may be removed.  No command makes or changes a status in another way, so
what these four keep holds of every status that a script can get hold of.

Main statements: `Formed.keys_nodup`, that no two slots of a status have the same key, and
`formed_after`, that every status variable of a script holds a status that came about like this.

## Sections

1. Statuses that came about.
2. What commands do to status variables.
3. After a script.
-/

namespace Ferry

/-! ## §1 Statuses that came about -/

/-- A status was made of a code and a message and changed by the three ways of changing one. -/
inductive Status.Formed : Status → Prop where
  | new (code : Code) (message : String) : Formed (.new code message)
  | setMessage {status : Status} (hformed : Formed status) (message : String) :
      Formed (status.setMessage message)
  | setSlot {status : Status} (hformed : Formed status) (key : String) (payload : Payload) :
      Formed (status.setSlot key payload)
  | eraseSlot {status : Status} (hformed : Formed status) (key : String) :
      Formed (status.eraseSlot key)

namespace Status

@[simp] theorem slots_setMessage (status : Status) (message : String) :
    (status.setMessage message).slots = status.slots := by
  unfold setMessage
  split <;> rfl

/-- No two slots have the same key. -/
theorem Formed.keys_nodup {status : Status} (hformed : status.Formed) : status.keys.Nodup := by
  induction hformed with
  | new code message => exact List.nodup_nil
  | @setMessage status _ message ih =>
    unfold keys
    rw [slots_setMessage]
    exact ih
  | setSlot _ key payload ih => exact KeyedList.keys_nodup_insert ih key payload
  | eraseSlot _ key ih => exact KeyedList.keys_nodup_erase ih key

theorem formed_ok : ok.Formed :=
  .new .ok ""

theorem formed_snapshot (status : Status) : status.snapshot.Formed := by
  unfold snapshot
  generalize status.allBytes.entries = entries
  have hnew : (new status.code status.message).Formed := .new _ _
  revert hnew
  generalize new status.code status.message = copy
  -- Each of the slots is put into what was copied before it.
  induction entries generalizing copy with
  | nil => exact id
  | cons entry rest ih => exact fun hcopy => ih _ (hcopy.setSlot entry.1 _)

theorem Formed.of_take? {status rest : Status} {key : String} {payload : Payload}
    (hformed : status.Formed) (htake : status.take? key = some (payload, rest)) : rest.Formed := by
  obtain ⟨_, _, heq⟩ := Option.map_eq_some_iff.mp htake
  cases heq
  exact hformed.eraseSlot key

end Status

namespace Holdings

theorem write_formed (h : Holdings) (r : Nat) {status : Status} (hformed : status.Formed)
    (key : String) (object : Option Object) : (h.write r status key object).2.Formed := by
  cases object with
  | none => exact hformed.eraseSlot key
  | some object => exact hformed.setSlot key _

theorem takeOut_formed (h : Holdings) (r : Nat) {status : Status} (hformed : status.Formed)
    (key : String) (type : ObjectType) : (h.takeOut r status key type).2.1.Formed := by
  unfold takeOut
  split
  · exact hformed
  · rename_i payload rest htake
    split
    · exact hformed
    · exact hformed.of_take? htake

end Holdings

namespace Bridge

theorem carry_formed (b : Bridge) (h : Holdings) (code : Code) (message : String)
    (slot : ExceptionSlot) (e : Option ExceptionRef) :
    (b.carry h code message slot e).2.Formed := by
  unfold carry
  split
  · exact Status.formed_ok
  · split
    · exact Status.formed_ok
    · exact Holdings.write_formed h _ (.new code message) slot.key _

theorem capture_formed (b : Bridge) (h : Holdings) (e : ExceptionRef) :
    (b.capture h e).2.Formed := by
  unfold capture
  split
  · exact Status.formed_ok
  · exact carry_formed b _ _ _ _ _

theorem captureFrom_formed (b : Bridge) (h : Holdings) (kind : Kind) (message : String)
    (cause : Option ExceptionRef) : (b.captureFrom h kind message cause).2.Formed := by
  unfold captureFrom
  cases cause <;> exact capture_formed b _ _

theorem hop_formed (b : Bridge) {h after : Holdings} {inner outer : Status} {step : Hop}
    (hformed : inner.Formed) (hhop : b.hop h inner step = (after, .ok outer)) : outer.Formed := by
  unfold hop at hhop
  split at hhop
  · cases hhop
    exact hformed
  · split at hhop
    · cases hhop
    · cases step with
      | chain kind message =>
        cases hhop
        exact captureFrom_formed b _ kind message _
      | wrap code message =>
        cases hhop
        exact carry_formed b _ _ _ _ _

theorem hops_formed (b : Bridge) {h after : Holdings} {inner outer : Status} {steps : List Hop}
    (hformed : inner.Formed) (hhops : b.hops h inner steps = (after, .ok outer)) :
    outer.Formed := by
  induction steps generalizing h inner with
  | nil =>
    cases hhops
    exact hformed
  | cons step rest ih =>
    rw [hops] at hhops
    split at hhops
    · cases hhops
    · rename_i middle passed hhop
      exact ih (hop_formed b hformed hhop) hhops

end Bridge

/-! ## §2 What commands do to status variables -/

namespace Script

namespace Session

/-- Every status variable holds a status that came about. -/
def AllFormed (s : Session) : Prop :=
  ∀ name status, (name, status) ∈ s.statuses.entries → status.Formed

variable {s s' : Session} {name : String}

theorem AllFormed.of_eq (hs : s.AllFormed) (hstatuses : s'.statuses = s.statuses) :
    s'.AllFormed := by
  unfold AllFormed
  rw [hstatuses]
  exact hs

theorem AllFormed.of_find? {status : Status} (hs : s.AllFormed)
    (hfind : s.statuses.find? name = some status) : status.Formed :=
  hs name status (KeyedList.mem_entries_of_find? hfind)

/-- Binding a status variable puts a status beside those that were there. -/
theorem AllFormed.insert {status : Status} (hs : s.AllFormed) (hformed : status.Formed)
    (hstatuses : s'.statuses = s.statuses.insert name status) : s'.AllFormed := by
  intro other found hmem
  rw [hstatuses] at hmem
  rcases KeyedList.mem_entries_insert hmem with heq | hmem
  · cases heq
    exact hformed
  · exact hs other found hmem

theorem AllFormed.erase (hs : s.AllFormed) (hstatuses : s'.statuses = s.statuses.erase name) :
    s'.AllFormed := by
  intro other found hmem
  rw [hstatuses] at hmem
  exact hs other found (KeyedList.mem_entries_erase hmem)

theorem formed_given {α : Type} {found : Option α} {act : α → Session × Reply}
    (hs : s.AllFormed) (hact : ∀ value, found = some value → (act value).1.AllFormed) :
    (s.given name found act).1.AllFormed := by
  cases found with
  | none => exact hs
  | some value => exact hact value rfl

theorem formed_givenOptional {α : Type} {among : KeyedList α} {optional : Option String}
    {act : Option α → Session × Reply} (hs : s.AllFormed)
    (hact : ∀ found, (act found).1.AllFormed) :
    (s.givenOptional among optional act).1.AllFormed := by
  cases optional with
  | none => exact hact none
  | some key => exact formed_given hs fun value _ => hact (some value)

theorem formed_onStatus {act : Status → Session × Reply} (hs : s.AllFormed)
    (hact : ∀ status, status.Formed → (act status).1.AllFormed) :
    (s.onStatus name act).1.AllFormed :=
  formed_given hs fun status hfind => hact status (hs.of_find? hfind)

end Session

open Session

variable {s : Session}

theorem StatusCommand.formed_run (hs : s.AllFormed) (command : StatusCommand) :
    (command.run s).1.AllFormed := by
  cases command with
  | new name code message => exact hs.insert (.new code message) rfl
  | ok name => exact hs.insert Status.formed_ok rfl
  | setMessage name message =>
    exact formed_onStatus hs fun _ hformed => hs.insert (hformed.setMessage message) rfl
  | setBytes name key bytes | setText name key text =>
    exact formed_onStatus hs fun _ hformed => hs.insert (hformed.setSlot key _) rfl
  | setPayload name key p =>
    exact formed_given hs fun payload _ => formed_onStatus hs fun _ hformed =>
      hs.insert (hformed.setSlot key payload) rfl
  | erase name key =>
    exact formed_onStatus hs fun _ hformed => hs.insert (hformed.eraseSlot key) rfl
  | take name key p =>
    refine formed_onStatus hs fun status hformed => ?_
    dsimp only
    split
    · exact hs
    · rename_i payload rest htake
      have hrest : (s.updateStatus name (s.holdings, rest)).AllFormed :=
        hs.insert (hformed.of_take? htake) rfl
      cases p <;> exact hrest
  | get name key p =>
    refine formed_onStatus hs fun status _ => ?_
    split <;> exact hs
  | snapshot name target =>
    exact formed_onStatus hs fun status _ => hs.insert (Status.formed_snapshot status) rfl
  | clone name target => exact formed_onStatus hs fun _ hformed => hs.insert hformed rfl
  | drop name => exact formed_onStatus hs fun _ _ => hs.erase rfl
  | keys _ | display _ | debug _ => exact formed_onStatus hs fun _ _ => hs
  | alike _ _ => exact formed_onStatus hs fun _ _ => formed_onStatus hs fun _ _ => hs

theorem ObjectCommand.formed_run (hs : s.AllFormed) (command : ObjectCommand) :
    (command.run s).1.AllFormed := by
  have hperform : (ObjectCommand.perform s command).1.AllFormed := by
    cases command with
    | new o source =>
      cases source with
      | status name => exact formed_onStatus hs fun _ _ => hs.erase rfl
      | number _ | text _ | bytes _ => exact hs
    | write name key r o =>
      cases o with
      | none =>
        exact formed_onStatus hs fun _ hformed =>
          hs.insert (Holdings.write_formed _ r hformed key none) rfl
      | some o =>
        exact formed_onStatus hs fun _ hformed => formed_given hs fun _ _ =>
          hs.insert (Holdings.write_formed _ r hformed key _) rfl
    | takeOut name key r type =>
      refine formed_onStatus hs fun status hformed => ?_
      have hrest := Holdings.takeOut_formed s.holdings r hformed key type
      generalize s.holdings.takeOut r status key type = taken at hrest ⊢
      obtain ⟨after, rest, result⟩ := taken
      have hafter : (s.updateStatus name (after, rest)).AllFormed := hs.insert hrest rfl
      exact hafter.of_eq (statuses_of_frame (frame_showOptionalObject _ result))
    | _ => exact hs.of_eq (statuses_of_frame (frame_perform s rfl))
  rcases command.run_cases s with hrun | ⟨name, hrun⟩
  · rw [hrun]
    exact hperform
  · rw [hrun]
    exact hs

theorem BridgeCommand.formed_run (hs : s.AllFormed) (command : BridgeCommand) :
    (command.run s).1.AllFormed := by
  cases command with
  | capture b e name =>
    exact formed_given hs fun bridge _ => formed_given hs fun ref _ =>
      hs.insert (bridge.capture_formed s.holdings ref) rfl
  | carryRaw b code message e name | carryCause b code message e name =>
    exact formed_given hs fun bridge _ => formed_givenOptional hs fun ref =>
      hs.insert (bridge.carry_formed _ code message _ ref) rfl
  | reconstruct b name e =>
    refine formed_given hs fun bridge _ => formed_onStatus hs fun status _ => ?_
    have hunbound : (s.unbindStatus name).AllFormed := hs.erase rfl
    dsimp only
    split
    · exact hunbound
    · exact hunbound
    · exact hunbound.of_eq (statuses_of_frame (frame_keepException _ e _))
  | raise b name e =>
    refine formed_given hs fun _ _ => formed_onStatus hs fun _ _ => ?_
    have hunbound : (s.unbindStatus name).AllFormed := hs.erase rfl
    exact hunbound.of_eq (statuses_of_frame (frame_showRaised _ e _))
  | hop b name target step count =>
    refine formed_given hs fun bridge _ => formed_onStatus hs fun status hformed => ?_
    have hunbound : (s.unbindStatus name).AllFormed := hs.erase rfl
    dsimp only
    split
    · exact hunbound
    · rename_i outer hpassed
      exact hunbound.insert (bridge.hops_formed hformed (Prod.ext rfl hpassed)) rfl
  | _ => exact hs.of_eq (statuses_run s rfl)

theorem Command.formed_run (hs : s.AllFormed) (command : Command) :
    (command.run s).1.AllFormed := by
  cases command with
  | status command => exact command.formed_run hs
  | payload command => exact hs.of_eq (command.statuses_run s)
  | object command => exact command.formed_run hs
  | exception command => exact hs.of_eq (statuses_of_frame (command.frame_run s))
  | outline command => exact hs.of_eq (statuses_of_frame (command.frame_run s))
  | bridge command => exact command.formed_run hs

/-! ## §3 After a script -/

namespace Session

theorem AllFormed.after (hs : s.AllFormed) (commands : List Command) :
    (s.after commands).AllFormed := by
  induction commands generalizing s with
  | nil => exact hs
  | cons command rest ih => exact ih (command.formed_run hs)

/-- Every status variable of a script holds a status that came about. -/
theorem formed_after (identities : List UInt64) (bridges : List Bridge)
    (commands : List Command) : ((start identities bridges).after commands).AllFormed := by
  refine AllFormed.after (fun name status hmem => ?_) commands
  cases hmem

end Session

end Script

end Ferry
