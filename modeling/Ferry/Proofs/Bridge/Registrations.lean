import Ferry.Proofs.Bridge.Dispatch
import Ferry.Proofs.KeyedOrder
import Ferry.Proofs.Ownership.Exact
import Ferry.Proofs.Script.Frames
import Ferry.Proofs.Text.Utf8

/-!
# Registrations

A key of a handler table belongs to the handler that was registered under it first, whatever is
registered later.  This holds of the tables of bridges, which begin with the two handlers for the
well-known slots, and of tables that stand alone; and it holds throughout a script, in which only
the commands that register change a table.

Main statements: `KeepsFirst.registerAll`, that registering keeps a table to the first
registrations; `Bridge.built_iff_equipment`, that every bridge is made of its registrations; and
`keeps_first_after`, what this comes to for the tables of a session.

## Sections

1. Tables that keep to the first registrations.
2. The tables of bridges.
3. The registrations of a script.
4. After a script.
-/

namespace Ferry

open Text (Utf8.bytes)

/-! ## §1 Tables that keep to the first registrations -/

namespace HandlerTable

variable {table : HandlerTable}

theorem keys_nodup_registerAll (hnodup : table.handlers.keys.Nodup)
    (bindings : List (String × Handler)) :
    (table.registerAll bindings).handlers.keys.Nodup := by
  induction bindings generalizing table with
  | nil => exact hnodup
  | cons binding rest ih =>
    refine ih ?_
    cases hbound : table.contains binding.1 with
    | true => exact (registerFree_of_bound hbound binding.2).symm ▸ hnodup
    | false =>
      rw [registerFree_of_free hbound binding.2]
      exact KeyedList.keys_nodup_insert hnodup binding.1 binding.2

/-- A table is what the first registrations under each key make it, and the ways of looking into it
agree. -/
structure KeepsFirst (table : HandlerTable) (bindings : List (String × Handler)) : Prop where
  /-- A key is bound to the handler that was registered under it first. -/
  get?_eq : ∀ key, table.get? key = bindings.lookup key
  contains_iff : ∀ key, table.contains key = true ↔ key ∈ bindings.map Prod.fst
  isSome_get? : ∀ key, (table.get? key).isSome = table.contains key
  mem_keys_iff : ∀ key, key ∈ table.keys ↔ table.contains key = true
  keys_increasing : table.keys.Pairwise fun a b => Utf8.bytes a < Utf8.bytes b
  /-- A handler is refused exactly if its key is bound. -/
  register_eq_error_iff : ∀ key handler fault, table.register key handler = .error fault ↔
    table.contains key = true ∧ fault = .alreadyRegistered key
  /-- What is refused changes nothing. -/
  refused : ∀ key handler, table.contains key = true → table.registerFree (key, handler) = table
  /-- What is bound stays bound, and to what it is bound. -/
  lasting : ∀ more key handler, table.get? key = some handler →
    (table.registerAll more).get? key = some handler

theorem keepsFirst_of_get? {bindings : List (String × Handler)}
    (hget : ∀ key, table.get? key = bindings.lookup key)
    (hnodup : table.handlers.keys.Nodup) : table.KeepsFirst bindings where
  get?_eq := hget
  contains_iff key := by
    show (table.get? key).isSome = true ↔ _
    rw [hget]
    exact KeyedList.find?_isSome_iff ⟨bindings⟩ key
  isSome_get? _ := rfl
  mem_keys_iff key := Text.Utf8.mem_sort_iff.trans (KeyedList.find?_isSome_iff _ key).symm
  keys_increasing := Text.Utf8.sort_increasing hnodup
  register_eq_error_iff := register_eq_error_iff table
  refused _ handler hbound := registerFree_of_bound hbound handler
  lasting more key handler hbound := by
    rw [get?_registerAll, hbound, Option.some_or]

theorem keepsFirst_empty : ({} : HandlerTable).KeepsFirst [] :=
  keepsFirst_of_get? (fun _ => rfl) List.nodup_nil

namespace KeepsFirst

variable {bindings : List (String × Handler)}

/-- No key is bound twice. -/
theorem keys_nodup (hkeeps : table.KeepsFirst bindings) : table.handlers.keys.Nodup := by
  refine (Text.Utf8.sort_perm _).nodup_iff.mp (hkeeps.keys_increasing.imp fun {a b} hlt heq => ?_)
  subst heq
  exact List.lt_irrefl _ hlt

/-- Registering keeps a table to the first registrations. -/
theorem registerAll (hkeeps : table.KeepsFirst bindings) (more : List (String × Handler)) :
    (table.registerAll more).KeepsFirst (bindings ++ more) := by
  refine keepsFirst_of_get? (fun key => ?_) (keys_nodup_registerAll hkeeps.keys_nodup more)
  rw [get?_registerAll, hkeeps.get?_eq, List.lookup_append]

end KeepsFirst

end HandlerTable

/-! ## §2 The tables of bridges -/

namespace Bridge

theorem keepsFirst_builtin : builtin.KeepsFirst builtins :=
  HandlerTable.keepsFirst_of_get? (fun _ => rfl) (by decide)

/-- A bridge keeps to the first registrations, and the handlers for the well-known slots come before
all of them. -/
structure KeepsFirst (b : Bridge) (bindings : List (String × Handler)) : Prop where
  table : b.table.KeepsFirst (builtins ++ bindings)
  /-- The well-known slots have their handlers, and no registration replaces them. -/
  wellKnown : ∀ (slot : ExceptionSlot) more,
    (b.registerAll more).table.get? slot.key = some slot.handler
  wellKnown_refused : ∀ (slot : ExceptionSlot) handler,
    b.register slot.key handler = .error (.alreadyRegistered slot.key)

theorem keepsFirst_of_table {b : Bridge} {bindings : List (String × Handler)}
    (htable : b.table.KeepsFirst (builtins ++ bindings)) : b.KeepsFirst bindings := by
  have hslot : ∀ slot : ExceptionSlot, b.table.get? slot.key = some slot.handler := by
    intro slot
    rw [htable.get?_eq, List.lookup_append, ← keepsFirst_builtin.get?_eq, get?_builtin]
    cases slot <;> rfl
  refine ⟨htable, fun slot more => ?_, fun slot handler => ?_⟩
  · rw [registerAll_eq]
    exact htable.lasting more slot.key _ (hslot slot)
  · have hbound : b.table.contains slot.key = true := by
      rw [← htable.isSome_get?, hslot]
      rfl
    unfold register
    rw [(htable.register_eq_error_iff _ handler _).mpr ⟨hbound, rfl⟩]
    rfl

theorem KeepsFirst.registerAll {b : Bridge} {bindings : List (String × Handler)}
    (hkeeps : b.KeepsFirst bindings) (more : List (String × Handler)) :
    (b.registerAll more).KeepsFirst (bindings ++ more) := by
  apply keepsFirst_of_table
  rw [registerAll_eq, ← List.append_assoc]
  exact hkeeps.table.registerAll more

theorem keepsFirst_new (registry : Nat) (config : Config) : (new registry config).KeepsFirst [] :=
  keepsFirst_of_table keepsFirst_builtin

theorem registerFree_of_register {b b' : Bridge} {key : String} {handler : Handler}
    (hregister : b.register key handler = .ok b') : b.registerFree (key, handler) = b' := by
  simp only [registerFree, hregister]

/-- What a bridge is made of: a registry, settings, and the handlers that are registered with it one
after the other. -/
structure Equipment where
  registry : Nat
  config : Config
  handlers : List (String × Handler)

/-- The bridge that is made of its equipment. -/
def Equipment.bridge (equipment : Equipment) : Bridge :=
  (new equipment.registry equipment.config).registerAll equipment.handlers

/-- The bridges that are built by registering handlers are those that are made of some equipment. -/
theorem built_iff_equipment {b : Bridge} :
    b.Built ↔ ∃ equipment : Equipment, equipment.bridge = b := by
  constructor
  · intro hb
    induction hb with
    | new registry config => exact ⟨⟨registry, config, []⟩, rfl⟩
    | @register b b' key handler _ hregister ih =>
      obtain ⟨⟨registry, config, handlers⟩, rfl⟩ := ih
      refine ⟨⟨registry, config, handlers ++ [(key, handler)]⟩, ?_⟩
      rw [Equipment.bridge, registerAll_append]
      exact registerFree_of_register hregister
  · rintro ⟨⟨registry, config, handlers⟩, rfl⟩
    exact Built.registerAll (.new registry config) handlers

theorem Equipment.registry_bridge (equipment : Equipment) :
    equipment.bridge.registry = equipment.registry := by
  rw [bridge, registerAll_eq]
  rfl

theorem Equipment.config_bridge (equipment : Equipment) :
    equipment.bridge.config = equipment.config :=
  config_registerAll _ _

theorem Equipment.keepsFirst_bridge (equipment : Equipment) :
    equipment.bridge.KeepsFirst equipment.handlers :=
  (keepsFirst_new _ _).registerAll equipment.handlers

end Bridge

namespace Script

/-! ## §3 The registrations of a script -/

/-- What a command asks to register with the bridge at a place. -/
def Command.registeredWith (place : Nat) : Command → List (String × Handler)
  | .bridge (.register b key name) => if b = place then [(key, name.handler)] else []
  | _ => []

/-- What a command asks to register in the table of a name. -/
def Command.registeredIn (t : String) : Command → List (String × Handler)
  | .bridge (.registerIn t' key name) => if t' = t then [(key, name.handler)] else []
  | _ => []

namespace Session

open BridgeCommand (tableOf withBridge)

variable {s : Session} {d : Dealings} {place : Nat} {b : Bridge}

theorem bridge?_eq_some_iff :
    s.bridge? place = some b
      ↔ s.bridges[place]? = some b ∧ b.registry < s.holdings.registries.size := by
  rw [bridge?, Option.filter_eq_some_iff, decide_eq_true_eq]

/-- Registering with a bridge is refused on a bound key and then changes nothing. -/
theorem register_run (hbridge : s.bridge? place = some b) (key : String) (name : HandlerName) :
    (Command.bridge (.register place key name)).run s
      = if b.table.contains key then (s, .fault (.alreadyRegistered key))
        else (withBridge s place (b.registerFree (key, name.handler)), .answer .nothing) := by
  simp only [Command.run, BridgeCommand.run, onBridge, hbridge, given, Bridge.registerFree,
    Bridge.register, HandlerTable.register]
  cases b.table.contains key <;> rfl

/-- Registering in a table is refused on a bound key and then changes nothing. -/
theorem registerIn_run (s : Session) (t key : String) (name : HandlerName) :
    (Command.bridge (.registerIn t key name)).run s
      = if (tableOf s t).contains key then (s, .fault (.alreadyRegistered key))
        else
          ({ s with
              tables := s.tables.insert t ((tableOf s t).registerFree (key, name.handler)) },
            .answer (.keys ((tableOf s t).registerFree (key, name.handler)).keys)) := by
  simp only [Command.run, BridgeCommand.run, HandlerTable.registerFree, HandlerTable.register]
  cases (tableOf s t).contains key <;> rfl

theorem registeredWith_of_other {command : Command}
    (hother : ∀ key name, command ≠ .bridge (.register place key name)) :
    command.registeredWith place = [] := by
  unfold Command.registeredWith
  split
  · next b key name =>
    refine if_neg ?_
    rintro rfl
    exact hother key name rfl
  · rfl

/-- A bridge changes only when handlers are registered with it. -/
theorem bridges_run_of_other {command : Command}
    (hother : ∀ key name, command ≠ .bridge (.register place key name)) :
    (command.run s).1.bridges[place]? = s.bridges[place]? := by
  by_cases hregister : ∃ b key name, command = .bridge (.register b key name)
  · obtain ⟨other, key, name, rfl⟩ := hregister
    have hne : other ≠ place := by
      rintro rfl
      exact hother key name rfl
    cases hbridge : s.bridge? other with
    | none => simp only [Command.run, BridgeCommand.run, onBridge, hbridge, given]
    | some b =>
      rw [register_run hbridge]
      split
      · rfl
      · exact List.getElem?_set_ne hne
  · simp only [not_exists] at hregister
    rw [command.bridges_run s hregister]

/-- A command registers with a bridge what it asks to, unless the key is bound. -/
theorem bridge?_run (hs : (s.account d).Consistent) (hbridge : s.bridge? place = some b)
    (command : Command) :
    (command.run s).1.bridge? place
      = some (b.registerAll (command.registeredWith place)) := by
  have hsize : (command.run s).1.holdings.registries.size = s.holdings.registries.size :=
    (command_run hs command).run.size_eq
  obtain ⟨hplace, hregistry⟩ := bridge?_eq_some_iff.mp hbridge
  have hkept : (b.registerAll (command.registeredWith place)).registry
      < (command.run s).1.holdings.registries.size := by
    rw [hsize, Bridge.registerAll_eq]
    exact hregistry
  refine bridge?_eq_some_iff.mpr ⟨?_, hkept⟩
  by_cases hregister : ∃ key name, command = .bridge (.register place key name)
  · obtain ⟨key, name, rfl⟩ := hregister
    simp only [Command.registeredWith, if_true]
    rw [register_run hbridge]
    split
    -- A refused handler is left out of the row, too.
    · next hbound =>
      rw [hplace, Bridge.registerAll_eq]
      show some b = some { b with table := b.table.registerFree (key, name.handler) }
      rw [HandlerTable.registerFree_of_bound hbound]
    · exact List.getElem?_set_self (List.getElem?_eq_some_iff.mp hplace).1
  · simp only [not_exists] at hregister
    rw [bridges_run_of_other hregister, registeredWith_of_other hregister, hplace]
    rfl

theorem bridge?_after (hs : (s.account d).Consistent) (hbridge : s.bridge? place = some b)
    (commands : List Command) :
    (s.after commands).bridge? place
      = some (b.registerAll (commands.flatMap (Command.registeredWith place))) := by
  induction commands generalizing s d b with
  | nil => exact hbridge
  | cons command rest ih =>
    rw [List.flatMap_cons, Bridge.registerAll_append]
    exact ih ((command_run hs command).consistent hs) (bridge?_run hs hbridge command)

theorem registeredIn_of_other {t : String} {command : Command}
    (hother : ∀ key name, command ≠ .bridge (.registerIn t key name)) :
    command.registeredIn t = [] := by
  unfold Command.registeredIn
  split
  · next t' key name =>
    refine if_neg ?_
    rintro rfl
    exact hother key name rfl
  · rfl

/-- A table changes only when handlers are registered in it. -/
theorem tableOf_run_of_other {t : String} {command : Command}
    (hother : ∀ key name, command ≠ .bridge (.registerIn t key name)) :
    tableOf (command.run s).1 t = tableOf s t := by
  unfold tableOf
  by_cases hregister : ∃ t' key name, command = .bridge (.registerIn t' key name)
  · obtain ⟨other, key, name, rfl⟩ := hregister
    have hne : t ≠ other := by
      rintro rfl
      exact hother key name rfl
    rw [registerIn_run]
    split
    · rfl
    · rw [KeyedList.find?_insert_of_ne _ _ hne]
  · simp only [not_exists] at hregister
    rw [command.tables_run s hregister]

/-- A command registers in a table what it asks to, unless the key is bound. -/
theorem tableOf_run (s : Session) (t : String) (command : Command) :
    tableOf (command.run s).1 t = (tableOf s t).registerAll (command.registeredIn t) := by
  by_cases hregister : ∃ key name, command = .bridge (.registerIn t key name)
  · obtain ⟨key, name, rfl⟩ := hregister
    simp only [Command.registeredIn, if_true]
    show _ = (tableOf s t).registerFree (key, name.handler)
    rw [registerIn_run]
    split
    · next hbound => rw [HandlerTable.registerFree_of_bound hbound]
    · simp only [tableOf, KeyedList.find?_insert_self, Option.getD_some]
  · simp only [not_exists] at hregister
    rw [tableOf_run_of_other hregister, registeredIn_of_other hregister]
    rfl

theorem tableOf_after (s : Session) (t : String) (commands : List Command) :
    tableOf (s.after commands) t
      = (tableOf s t).registerAll (commands.flatMap (Command.registeredIn t)) := by
  induction commands generalizing s with
  | nil => rfl
  | cons command rest ih =>
    rw [List.flatMap_cons, HandlerTable.registerAll_append, ← tableOf_run]
    exact ih (command.run s).1

/-! ## §4 After a script -/

/-- The handlers of a session are those that were registered first.  The bridges had their equipment
when the script began. -/
structure KeepsFirst (s : Session) (identities : List UInt64) (equipment : List Bridge.Equipment)
    (commands : List Command) : Prop where
  /-- A bridge over a registry of the session has its equipment and what the script added. -/
  bridges : ∀ place equipped, equipment[place]? = some equipped →
    equipped.registry < identities.length →
      ∃ b, s.bridge? place = some b ∧ b.registry = equipped.registry ∧
        b.config = equipped.config ∧
        b.KeepsFirst (equipped.handlers ++ commands.flatMap (Command.registeredWith place))
  /-- A table of its own has what the script added. -/
  tables : ∀ t, (tableOf s t).KeepsFirst (commands.flatMap (Command.registeredIn t))
  /-- Registering once more is refused exactly on a bound key, and then changes nothing. -/
  register_run : ∀ place b key name, s.bridge? place = some b →
    (Command.bridge (.register place key name)).run s
      = if b.table.contains key then (s, .fault (.alreadyRegistered key))
        else (withBridge s place (b.registerFree (key, name.handler)), .answer .nothing)
  registerIn_run : ∀ t key name,
    (Command.bridge (.registerIn t key name)).run s
      = if (tableOf s t).contains key then (s, .fault (.alreadyRegistered key))
        else
          ({ s with
              tables := s.tables.insert t ((tableOf s t).registerFree (key, name.handler)) },
            .answer (.keys ((tableOf s t).registerFree (key, name.handler)).keys))

/-- A session starts with the bridges that were made for it. -/
theorem bridge?_start {identities : List UInt64} {equipment : List Bridge.Equipment}
    {equipped : Bridge.Equipment} (hplace : equipment[place]? = some equipped)
    (hregistry : equipped.registry < identities.length) :
    (start identities (equipment.map Bridge.Equipment.bridge)).bridge? place
      = some equipped.bridge := by
  refine bridge?_eq_some_iff.mpr ⟨?_, ?_⟩
  · show (equipment.map Bridge.Equipment.bridge)[place]? = _
    rw [List.getElem?_map, hplace]
    rfl
  · rw [equipped.registry_bridge]
    simpa [start, Holdings.start] using hregistry

/-- Whatever is registered, and whatever else a script does, a key belongs to the handler that was
registered under it first. -/
theorem keeps_first_after (identities : List UInt64) (equipment : List Bridge.Equipment)
    (commands : List Command) :
    (∀ bindings, (({} : HandlerTable).registerAll bindings).KeepsFirst bindings) ∧
      (∀ equipped : Bridge.Equipment, equipped.bridge.KeepsFirst equipped.handlers) ∧
      ((start identities (equipment.map Bridge.Equipment.bridge)).after commands).KeepsFirst
        identities equipment commands := by
  have hempty := HandlerTable.keepsFirst_empty
  refine ⟨hempty.registerAll, Bridge.Equipment.keepsFirst_bridge, ?_⟩
  refine
    { bridges := fun place equipped hplace hregistry => ?_
      tables := fun t => ?_
      register_run := fun place b key name hbridge => register_run hbridge key name
      registerIn_run := registerIn_run _ }
  · have hbridge := bridge?_after (start_consistent identities _)
      (bridge?_start hplace hregistry) commands
    refine ⟨_, hbridge, ?_, ?_, equipped.keepsFirst_bridge.registerAll _⟩
    · rw [Bridge.registerAll_eq]
      exact equipped.registry_bridge
    · rw [Bridge.config_registerAll]
      exact equipped.config_bridge
  · rw [tableOf_after]
    exact hempty.registerAll _

end Session

end Script

end Ferry
