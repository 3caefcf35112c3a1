import Ferry.Bridge.Conduct
import Ferry.Proofs.Bridge.Carrying

/-!
# Dispatch

Which handler raises a status is decided by the keys of its slots alone.  The one slot of a status
is raised by the handler that was registered first under its key, and that handler is called once,
with the payload of the slot and the status without it.  Any other failure is raised as an exception
made from code and message, and what its slots hold makes no difference to that exception.

Main statements: `HandlerTable.get?_registerAll`, which handler a key has;
`Bridge.classify_eq_of_keys` and `Bridge.classify_registerAll`, what leaves the decision as it is;
`Bridge.callsUnder_of_slots`, which calls are made; and `dispatches_after`, what this comes to after
a script.

## Sections

1. Rows of registrations.
2. The decision.
3. The calls.
4. Exceptions that nobody holds.
5. The plain exception.
6. After a script.
-/

namespace Ferry

/-! ## §1 Rows of registrations -/

namespace HandlerTable

variable {table : HandlerTable} {key : String}

/-- Adds a handler, unless its key is bound. -/
def registerFree (table : HandlerTable) (binding : String × Handler) : HandlerTable :=
  match table.register binding.1 binding.2 with
  | .ok bound => bound
  | .error _ => table

/-- Adds handlers one after the other, leaving out those whose keys are bound. -/
def registerAll (table : HandlerTable) (bindings : List (String × Handler)) : HandlerTable :=
  bindings.foldl registerFree table

theorem registerAll_append (table : HandlerTable) (first second : List (String × Handler)) :
    table.registerAll (first ++ second) = (table.registerAll first).registerAll second :=
  List.foldl_append

theorem registerFree_of_bound (hbound : table.contains key = true) (handler : Handler) :
    table.registerFree (key, handler) = table := by
  simp [registerFree, register, hbound]

theorem registerFree_of_free (hfree : table.contains key = false) (handler : Handler) :
    table.registerFree (key, handler) = ⟨table.handlers.insert key handler⟩ := by
  simp [registerFree, register, hfree]

/-- A key that is bound keeps its handler; another gets the one that is registered. -/
theorem get?_registerFree (table : HandlerTable) (key : String) (handler : Handler)
    (other : String) :
    (table.registerFree (key, handler)).get? other
      = (table.get? other).or (if other = key then some handler else none) := by
  cases hbound : table.contains key with
  | true =>
    rw [registerFree_of_bound hbound]
    split
    · next hsame =>
      subst hsame
      obtain ⟨bound, hget⟩ := Option.isSome_iff_exists.mp hbound
      have hget' : table.get? other = some bound := hget
      rw [hget', Option.some_or]
    · rw [Option.or_none]
  | false =>
    rw [registerFree_of_free hbound]
    split
    · next hsame =>
      subst hsame
      have hget : table.get? other = none := Option.not_isSome_iff_eq_none.mp (by
        rw [show (table.get? other).isSome = false from hbound]
        nofun)
      rw [hget, Option.none_or]
      exact KeyedList.find?_insert_self _ _ _
    · next hother =>
      rw [Option.or_none]
      exact KeyedList.find?_insert_of_ne _ _ hother

/-- A key has the handler that was registered for it first. -/
theorem get?_registerAll (table : HandlerTable) (bindings : List (String × Handler))
    (key : String) :
    (table.registerAll bindings).get? key = (table.get? key).or (bindings.lookup key) := by
  induction bindings generalizing table with
  | nil => exact Option.or_none.symm
  | cons binding rest ih =>
    obtain ⟨bound, handler⟩ := binding
    show ((table.registerFree (bound, handler)).registerAll rest).get? key = _
    rw [ih, get?_registerFree, Option.or_assoc, List.lookup_cons]
    by_cases hkey : key = bound
    · simp [hkey]
    · have hne : (key == bound) = false := by simpa using hkey
      simp [hkey, hne]

end HandlerTable

namespace Bridge

/-- Adds a handler, unless its key is bound. -/
def registerFree (b : Bridge) (binding : String × Handler) : Bridge :=
  match b.register binding.1 binding.2 with
  | .ok bound => bound
  | .error _ => b

/-- Adds handlers one after the other, leaving out those whose keys are bound. -/
def registerAll (b : Bridge) (bindings : List (String × Handler)) : Bridge :=
  bindings.foldl registerFree b

/-- The bindings of the handlers that every bridge starts with. -/
def builtins : List (String × Handler) :=
  builtin.handlers.entries

theorem registerAll_append (b : Bridge) (first second : List (String × Handler)) :
    b.registerAll (first ++ second) = (b.registerAll first).registerAll second :=
  List.foldl_append

/-- A bridge registers a handler in its table and changes nothing else. -/
theorem registerFree_eq (b : Bridge) (binding : String × Handler) :
    b.registerFree binding = { b with table := b.table.registerFree binding } := by
  unfold registerFree register HandlerTable.registerFree
  cases b.table.register binding.1 binding.2 <;> rfl

theorem registerAll_eq (b : Bridge) (bindings : List (String × Handler)) :
    b.registerAll bindings = { b with table := b.table.registerAll bindings } := by
  induction bindings generalizing b with
  | nil => rfl
  | cons binding rest ih =>
    show (b.registerFree binding).registerAll rest = _
    rw [ih, registerFree_eq]
    rfl

/-- So the key of a bridge has the handler that was registered for it first. -/
theorem get?_registerAll (b : Bridge) (bindings : List (String × Handler)) (key : String) :
    (b.registerAll bindings).table.get? key = (b.table.get? key).or (bindings.lookup key) := by
  rw [registerAll_eq]
  exact b.table.get?_registerAll bindings key

@[simp] theorem config_registerAll (b : Bridge) (bindings : List (String × Handler)) :
    (b.registerAll bindings).config = b.config := by
  rw [registerAll_eq]

/-- Registering handlers builds a bridge out of a bridge that was built. -/
theorem Built.registerAll {b : Bridge} (hb : b.Built) (bindings : List (String × Handler)) :
    (b.registerAll bindings).Built := by
  induction bindings generalizing b with
  | nil => exact hb
  | cons binding rest ih =>
    refine ih ?_
    unfold registerFree
    cases hregister : b.register binding.1 binding.2 with
    | ok bound => exact .register hb hregister
    | error fault => exact hb

theorem get?_new (registry : Nat) (config : Config) (bindings : List (String × Handler))
    (key : String) :
    ((new registry config).registerAll bindings).table.get? key
      = (builtins ++ bindings).lookup key := by
  rw [get?_registerAll, List.lookup_append]
  rfl

/-- A key is bound if it is one of those that were registered. -/
theorem contains_new (registry : Nat) (config : Config) (bindings : List (String × Handler))
    (key : String) :
    ((new registry config).registerAll bindings).table.contains key = true
      ↔ key ∈ (builtins ++ bindings).map Prod.fst := by
  show (((new registry config).registerAll bindings).table.get? key).isSome = true ↔ _
  rw [get?_new]
  exact KeyedList.find?_isSome_iff ⟨builtins ++ bindings⟩ key

/-- Registering more handlers binds keys and frees none. -/
theorem contains_registerAll {b : Bridge} {key : String} (hbound : b.table.contains key = true)
    (bindings : List (String × Handler)) :
    (b.registerAll bindings).table.contains key = true := by
  obtain ⟨handler, hget⟩ := Option.isSome_iff_exists.mp hbound
  refine Option.isSome_iff_exists.mpr ⟨handler, ?_⟩
  have hmore := get?_registerAll b bindings key
  rw [show b.table.get? key = some handler from hget, Option.some_or] at hmore
  exact hmore

/-! ## §2 The decision -/

variable {b : Bridge} {status : Status} {key : String}

/-- A status is plain if none of its keys is bound. -/
theorem classify_eq_plain_iff :
    b.classify status = .plain ↔ ∀ key ∈ status.keys, b.table.contains key = false := by
  unfold classify
  split
  · next hkeys => simp [hkeys]
  · next only hkeys => cases hbound : b.table.contains only <;> simp [hkeys, hbound]
  · next keys _ hmany =>
    cases hany : status.keys.any b.table.contains with
    | false => simpa using hany
    | true =>
      obtain ⟨key, hkey, hbound⟩ := List.any_eq_true.mp hany
      simp only [if_true, reduceCtorEq, false_iff]
      intro hfree
      rw [hfree key hkey] at hbound
      cases hbound

/-- A status is ambiguous if it has several slots and one of its keys is bound. -/
theorem classify_eq_ambiguous_iff :
    b.classify status = .ambiguous
      ↔ 2 ≤ status.keys.length ∧ ∃ key ∈ status.keys, b.table.contains key = true := by
  unfold classify
  split
  · next hkeys => simp [hkeys]
  · next only hkeys => cases b.table.contains only <;> simp [hkeys]
  · next keys hnone hmany =>
    have hlength : 2 ≤ status.keys.length := by
      match hkeys : status.keys with
      | [] => exact absurd hkeys hnone
      | [only] => exact absurd hkeys (hmany only)
      | _ :: _ :: rest => simp
    cases hany : status.keys.any b.table.contains with
    | false => simpa [hlength] using hany
    | true => simpa [hlength] using hany

/-- The decision depends on the keys of the slots alone, and not on their order. -/
theorem classify_eq_of_keys {other : Status} (hkeys : other.keys.Perm status.keys) :
    b.classify other = b.classify status := by
  cases hclass : b.classify status with
  | plain =>
    rw [classify_eq_plain_iff] at hclass ⊢
    exact fun key hkey => hclass key (hkeys.mem_iff.mp hkey)
  | handler key =>
    rw [classify_eq_handler_iff] at hclass ⊢
    exact ⟨List.perm_singleton.mp (hclass.1 ▸ hkeys), hclass.2⟩
  | ambiguous =>
    rw [classify_eq_ambiguous_iff] at hclass ⊢
    obtain ⟨hlength, key, hkey, hbound⟩ := hclass
    exact ⟨hkeys.length_eq ▸ hlength, key, hkeys.mem_iff.mpr hkey, hbound⟩

/-- Registering more handlers leaves every decision as it is but that for a plain status. -/
theorem classify_registerAll (bindings : List (String × Handler))
    (hclass : b.classify status ≠ .plain) :
    (b.registerAll bindings).classify status = b.classify status := by
  cases hbefore : b.classify status with
  | plain => exact absurd hbefore hclass
  | handler key =>
    rw [classify_eq_handler_iff] at hbefore ⊢
    exact ⟨hbefore.1, contains_registerAll hbefore.2 bindings⟩
  | ambiguous =>
    rw [classify_eq_ambiguous_iff] at hbefore ⊢
    obtain ⟨hlength, key, hkey, hbound⟩ := hbefore
    exact ⟨hlength, key, hkey, contains_registerAll hbound bindings⟩

/-! ## §3 The calls -/

/-- One call of a handler. -/
structure Call where
  handler : Handler
  payload : Payload
  /-- The status without the slot. -/
  rest : Status

end Bridge

variable {σ : Type}

/-- The same conduct, with the calls written down in order. -/
def Conduct.logged (conduct : Conduct σ) : Conduct (σ × List Bridge.Call) :=
  fun handler payload rest scene =>
    let ran := conduct handler payload rest ⟨scene.holdings, scene.state.1⟩
    (⟨ran.1.holdings, ran.1.state, scene.state.2 ++ [⟨handler, payload, rest⟩]⟩, ran.2)

/-- The only key of a status belongs to its only slot. -/
theorem Status.exists_slots_of_keys {status : Status} {key : String}
    (hkeys : status.keys = [key]) : ∃ payload, status.slots = ⟨[(key, payload)]⟩ := by
  obtain ⟨code, message, ⟨entries⟩⟩ := status
  obtain ⟨⟨only, payload⟩, rfl, rfl⟩ := List.map_eq_singleton_iff.mp hkeys
  exact ⟨payload, rfl⟩

namespace Bridge

open Scene

variable {b : Bridge} {status : Status} {key : String} {payload : Payload} {handler : Handler}

/-- The calls that are made while a status is reconstructed. -/
def callsUnder (b : Bridge) (conduct : Conduct σ) (scene : Scene σ) (status : Status) :
    List Call :=
  (b.reconstructUnder conduct.logged ⟨scene.holdings, scene.state, []⟩ status).1.state.2

/-- Writing the calls down changes nothing else. -/
theorem bare_handleUnder_logged (b : Bridge) (conduct : Conduct σ) (scene : Scene σ)
    (calls : List Call) (handler : Handler) (payload : Payload) (rest : Status) :
    bare (b.handleUnder conduct.logged ⟨scene.holdings, scene.state, calls⟩ handler payload rest)
      = bare (b.handleUnder conduct scene handler payload rest) := by
  simp only [handleUnder, Conduct.logged]
  rcases conduct handler payload rest scene with ⟨after, fault | e⟩
  · cases b.config.onUnresolved <;> rfl
  · rfl

theorem bare_reconstructUnder_logged (b : Bridge) (conduct : Conduct σ) (scene : Scene σ)
    (calls : List Call) (status : Status) :
    bare (b.reconstructUnder conduct.logged ⟨scene.holdings, scene.state, calls⟩ status)
      = bare (b.reconstructUnder conduct scene status) := by
  unfold reconstructUnder
  split
  · rfl
  · cases b.classify status with
    | plain => rfl
    | ambiguous => rfl
    | handler key =>
      dsimp only
      cases b.table.get? key with
      | none => rfl
      | some handler =>
        cases status.take? key with
        | none => rfl
        | some taken => exact bare_handleUnder_logged b conduct scene calls handler taken.1 taken.2

/-- A handler is called once when it is called. -/
theorem state_handleUnder (b : Bridge) (conduct : Conduct σ) (scene : Scene σ) (handler : Handler)
    (payload : Payload) (rest : Status) :
    (b.handleUnder conduct scene handler payload rest).1.state
      = (conduct handler payload rest scene).1.state := by
  unfold handleUnder
  rcases conduct handler payload rest scene with ⟨after, fault | e⟩
  · cases b.config.onUnresolved <;> rfl
  · rfl

/-- A failure with one slot is given to the handler of the slot. -/
theorem reconstructUnder_of_slots (hfails : status.isOk = false)
    (hslots : status.slots = ⟨[(key, payload)]⟩) (hget : b.table.get? key = some handler)
    (conduct : Conduct σ) (scene : Scene σ) :
    b.reconstructUnder conduct scene status
      = b.handleUnder conduct scene handler payload { status with slots := {} } := by
  have hclass : b.classify status = .handler key := classify_of_slots hslots hget
  have htake := Status.take?_of_slots hslots
  simp only [reconstructUnder, hfails, Bool.false_eq_true, if_false, hclass, hget, htake]

/-- A failure that is given to no handler is raised from code and message. -/
theorem reconstructUnder_of_plain (hfails : status.isOk = false)
    (hclass : ∀ key, b.classify status ≠ .handler key) (conduct : Conduct σ) (scene : Scene σ) :
    b.reconstructUnder conduct scene status
      = beside scene.state (b.settlePlain scene.holdings status) := by
  simp only [reconstructUnder, hfails, Bool.false_eq_true, if_false]
  cases hdispatch : b.classify status with
  | plain => rfl
  | ambiguous => rfl
  | handler key => exact absurd hdispatch (hclass key)

theorem reconstruct_of_plain (hfails : status.isOk = false)
    (hclass : ∀ key, b.classify status ≠ .handler key) (h : Holdings) :
    b.reconstruct h status = b.settlePlain h status := by
  have hunder := reconstructUnder_of_plain hfails hclass (b.noting fun _ _ _ => id) ⟨h, ()⟩
  rw [← bare_reconstructUnder b (fun _ _ _ => id) ⟨h, ()⟩ status, hunder]
  rfl

/-- The handler of the one slot is called once, with the payload of the slot and the status without
it. -/
theorem callsUnder_of_slots (hfails : status.isOk = false)
    (hslots : status.slots = ⟨[(key, payload)]⟩) (hget : b.table.get? key = some handler)
    (conduct : Conduct σ) (scene : Scene σ) :
    b.callsUnder conduct scene status = [⟨handler, payload, { status with slots := {} }⟩] := by
  unfold callsUnder
  rw [reconstructUnder_of_slots hfails hslots hget, state_handleUnder]
  rfl

/-- Where no handler is decided for, none is called. -/
theorem callsUnder_of_plain (hfails : status.isOk = false)
    (hclass : ∀ key, b.classify status ≠ .handler key) (conduct : Conduct σ) (scene : Scene σ) :
    b.callsUnder conduct scene status = [] := by
  unfold callsUnder
  rw [reconstructUnder_of_plain hfails hclass]
  rfl

end Bridge

/-! ## §4 Exceptions that nobody holds -/

/-- A cascade does not come to an exception that nothing links to. -/
theorem ExceptionGraph.dropAll_of_unheld {g : ExceptionGraph} {e : ExceptionRef}
    {pending : List ExceptionRef}
    (hunheld : g.weight (fun node => node.shares.count (.exception e)) = 0)
    (hpending : e ∉ pending) :
    (dropAll g pending).cell? e = g.cell? e ∧
      (dropAll g pending).weight (fun node => node.shares.count (.exception e)) = 0 := by
  induction g, pending using dropAll.induct with
  | case1 g =>
    rw [dropAll_nil]
    exact ⟨rfl, hunheld⟩
  | case2 g x rest released ih =>
    rw [dropAll_cons]
    rw [List.mem_cons, not_or] at hpending
    have hbalance := Pool.weight_release (fun node => node.shares.count (.exception e)) g x
    -- What departs links to the exception as little as what stays.
    have hdeparting : e ∉ departing (g.release x).2 := by
      cases hgone : (g.release x).2 with
      | none => exact List.not_mem_nil
      | some node =>
        intro hmem
        have hcount : 0 < node.shares.count (.exception e) :=
          List.count_pos_iff.mpr (List.mem_map_of_mem hmem)
        simp only [hgone, Option.map_some, Option.getD_some] at hbalance
        omega
    have hreleased : released.1.weight (fun node => node.shares.count (.exception e)) = 0 :=
      Nat.eq_zero_of_add_eq_zero_right (hbalance.trans hunheld)
    obtain ⟨hcell, hweight⟩ := ih hreleased fun hmem =>
      (List.mem_append.mp hmem).elim hdeparting hpending.2
    exact ⟨hcell.trans (Pool.cell?_release_of_ne g hpending.1), hweight⟩

namespace Holdings

variable {h : Holdings} {e : ExceptionRef}

/-- Giving up a share of something else does not touch an exception that nobody holds. -/
theorem settle_of_unheld (htidy : ∀ r, (h.registry r).Tidy) (hunheld : h.held (.exception e) = 0)
    {s : Share} (hs : s ≠ .exception e) :
    (h.settle s).1.exceptions.cell? e = h.exceptions.cell? e ∧
      (h.settle s).1.held (.exception e) = 0 ∧ Share.exception e ∉ (h.settle s).2 := by
  cases s with
  | owner o =>
    have hheld := letGo_held htidy (.owner o) (.exception e)
    rw [hunheld, Nat.add_eq_zero_iff] at hheld
    exact ⟨congrArg (Pool.cell? · e) (letGo_owner_pools h o).2.2, hheld.1,
      List.count_eq_zero.mp hheld.2⟩
  | item ref =>
    have hheld := letGo_held htidy (.item ref) (.exception e)
    rw [hunheld, Nat.add_eq_zero_iff] at hheld
    exact ⟨rfl, hheld.1, List.count_eq_zero.mp hheld.2⟩
  | exception x =>
    have hne : e ∉ [x] := by
      rintro (_ | ⟨_, hmem⟩)
      · exact hs rfl
      · cases hmem
    simp only [held, Nat.add_eq_zero_iff] at hunheld
    obtain ⟨hcell, hweight⟩ := ExceptionGraph.dropAll_of_unheld hunheld.2 hne
    refine ⟨hcell, ?_, List.not_mem_nil⟩
    simp only [held, Nat.add_eq_zero_iff]
    exact ⟨hunheld.1, hweight⟩

/-- A cascade does not touch an exception that nobody holds. -/
theorem cell?_releaseAll_of_unheld (htidy : ∀ r, (h.registry r).Tidy)
    (hunheld : h.held (.exception e) = 0) {pending : List Share}
    (hpending : Share.exception e ∉ pending) :
    (h.releaseAll pending).exceptions.cell? e = h.exceptions.cell? e := by
  induction h, pending using releaseAll.induct with
  | case1 h => rw [releaseAll_nil]
  | case2 h share rest settled ih =>
    rw [List.mem_cons, not_or] at hpending
    obtain ⟨hcell, hheld, hfreed⟩ := settle_of_unheld htidy hunheld (Ne.symm hpending.1)
    rw [releaseAll_cons]
    refine (ih (tidy_settle htidy share) hheld fun hmem => ?_).trans hcell
    exact (List.mem_append.mp hmem).elim hfreed hpending.2

end Holdings

/-! ## §5 The plain exception -/

/-- An exception made from a code and a message, with neither links nor frames. -/
def Node.plain (strip : Bool) (code : Code) (message : String) : Node where
  kind := Kind.ofCode code
  message := Message.compose code (Kind.ofCode code) (Message.prepare strip message)

/-- A reference to a new exception is held nowhere. -/
theorem Account.Consistent.held_new {a : Account} (ha : a.Consistent) (node : Node) :
    a.holdings.held (.exception (a.holdings.exceptions.insert node).2) = 0 := by
  have hbalance := ha.balance (.exception (a.holdings.exceptions.insert node).2)
  have hholders : a.holdings.holders (.exception (a.holdings.exceptions.insert node).2) = 0 := by
    show a.holdings.exceptions.holders _ = 0
    rw [Pool.holders, Pool.cell?_fresh]
  omega

namespace Bridge

/-- The plain exception of a status outlives the status. -/
theorem settlePlain_content {a : Account} (ha : a.Consistent) (b : Bridge) (status : Status) :
    ∃ after e, b.settlePlain a.holdings status = (after, .ok (some e)) ∧
      after.exceptions.content? e
        = some (.plain b.config.strip status.code status.message) := by
  refine ⟨_, _, rfl, ?_⟩
  generalize hnode : Node.plain b.config.strip status.code status.message = node
  have hplain : b.plainException a.holdings status
      = (a.holdings.withExceptions (a.holdings.exceptions.insert node).1,
        (a.holdings.exceptions.insert node).2) := by
    rw [← hnode]
    rfl
  have hinserted := Pool.content?_insert a.holdings.exceptions node
    (a.holdings.exceptions.insert node).2
  rw [if_pos rfl] at hinserted
  -- Nobody holds the new exception, so dropping the status does not come to it.
  have hunheld := Holdings.held_insertNode a.holdings node
    (.exception (a.holdings.exceptions.insert node).2)
  rw [ha.held_new, ← hnode] at hunheld
  have howners : Share.exception (a.holdings.exceptions.insert node).2 ∉ status.shares := by
    simp [Status.shares]
  have hkept := Holdings.cell?_releaseAll_of_unheld
    (h := a.holdings.withExceptions (a.holdings.exceptions.insert node).1) ha.tidy
    (hnode ▸ hunheld) howners
  rw [hplain, Pool.content?, Holdings.dropStatus, hkept]
  exact hinserted

end Bridge

/-! ## §6 After a script -/

namespace Bridge

/-- What decides how a bridge with given bindings raises a status, which handler it calls, and what
it makes of a status without calling any.  The holdings are those that the bridge works with. -/
structure Dispatches (b : Bridge) (bindings : List (String × Handler)) (h : Holdings) : Prop where
  handler_iff : ∀ status key, b.classify status = .handler key ↔
    status.keys = [key] ∧ key ∈ bindings.map Prod.fst
  ambiguous_iff : ∀ status, b.classify status = .ambiguous ↔
    2 ≤ status.keys.length ∧ ∃ key ∈ status.keys, key ∈ bindings.map Prod.fst
  plain_iff : ∀ status, b.classify status = .plain ↔
    ∀ key ∈ status.keys, key ∉ bindings.map Prod.fst
  /-- Neither the order of the slots nor anything in them matters. -/
  classify_eq : ∀ status other, other.keys.Perm status.keys → b.classify other = b.classify status
  /-- More handlers change the decision for plain statuses only. -/
  classify_more : ∀ status more, b.classify status ≠ .plain →
    (b.registerAll more).classify status = b.classify status
  /-- The handler that was registered first under the key is called once, however it works. -/
  calls : ∀ status key, status.isOk = false → b.classify status = .handler key →
    ∃ handler payload, bindings.lookup key = some handler ∧ status.slots = ⟨[(key, payload)]⟩ ∧
      b.reconstruct h status = b.handle h handler payload { status with slots := {} } ∧
      ∀ (σ : Type) (conduct : Conduct σ) (scene : Scene σ),
        b.reconstructUnder conduct scene status
            = b.handleUnder conduct scene handler payload { status with slots := {} } ∧
          b.callsUnder conduct scene status = [⟨handler, payload, { status with slots := {} }⟩]
  /-- The bridge reconstructs as it does under the conduct of its own handlers. -/
  own_eq : ∀ (σ : Type) (note : Handler → Payload → Status → σ → σ) (scene : Scene σ)
    (status : Status),
    Scene.bare (b.reconstructUnder (b.noting note) scene status)
      = b.reconstruct scene.holdings status
  /-- The calls are those of the reconstruction: writing them down changes nothing else. -/
  logged_eq : ∀ (σ : Type) (conduct : Conduct σ) (scene : Scene σ) (status : Status),
    Scene.bare (b.reconstructUnder conduct.logged ⟨scene.holdings, scene.state, []⟩ status)
      = Scene.bare (b.reconstructUnder conduct scene status)
  /-- Code, message and the setting for blanks make the exception of any other failure. -/
  plain : ∀ status, status.isOk = false → (∀ key, b.classify status ≠ .handler key) →
    (∃ after e, b.reconstruct h status = (after, .ok (some e)) ∧
      after.exceptions.content? e
        = some (.plain b.config.strip status.code status.message)) ∧
      ∀ (σ : Type) (conduct : Conduct σ) (scene : Scene σ), b.callsUnder conduct scene status = []

end Bridge

namespace Script.Session

open Bridge

/-- After a script, a bridge decides by the keys of the slots, be they bound by the built-in
handlers or by those that were registered. -/
theorem dispatches_after (identities : List UInt64) (bridges : List Bridge)
    (commands : List Command) (registry : Nat) (config : Config)
    (bindings : List (String × Handler)) :
    ((Bridge.new registry config).registerAll bindings).Dispatches (builtins ++ bindings)
      ((start identities bridges).after commands).holdings := by
  have hbound := contains_new registry config bindings
  refine
    { handler_iff := fun status key => ?_
      ambiguous_iff := fun status => ?_
      plain_iff := fun status => ?_
      classify_eq := fun status other => classify_eq_of_keys
      classify_more := fun status more => classify_registerAll more
      calls := fun status key hfails hclass => ?_
      own_eq := fun σ note => bare_reconstructUnder _ note
      logged_eq := fun σ conduct scene status =>
        bare_reconstructUnder_logged _ conduct scene [] status
      plain := fun status hfails hclass => ⟨?_, fun σ => callsUnder_of_plain hfails hclass⟩ }
  · rw [classify_eq_handler_iff, hbound]
  · simp only [classify_eq_ambiguous_iff, hbound]
  · simp only [classify_eq_plain_iff, ← hbound, Bool.not_eq_true]
  · obtain ⟨hkeys, hregistered⟩ := classify_eq_handler_iff.mp hclass
    obtain ⟨payload, hslots⟩ := Status.exists_slots_of_keys hkeys
    obtain ⟨handler, hget⟩ := Option.isSome_iff_exists.mp hregistered
    refine ⟨handler, payload, ?_, hslots, reconstruct_of_slots hfails hslots hget,
      fun σ conduct scene => ⟨reconstructUnder_of_slots hfails hslots hget conduct scene,
        callsUnder_of_slots hfails hslots hget conduct scene⟩⟩
    rw [← get?_new registry config]
    exact hget
  · rw [reconstruct_of_plain hfails hclass]
    exact settlePlain_content (after_consistent identities bridges commands) _ status

end Script.Session

end Ferry
