import Ferry.Proofs.Bridge.Dropping
import Ferry.Proofs.Exception.Growth
import Ferry.Proofs.Ownership.Honoured
import Ferry.Proofs.Ownership.PartialMap
import Ferry.Proofs.Ownership.Spared

/-!
# Carrying an exception

A payload carries an exception if it is a token of a live entry of it under the owner that answers
for the entry.  Sending an exception makes a status with one such payload.  Whoever takes the
exception out of the payload gets it, be it as the last holder or beside others; and a bridge with
the built-in handlers raises it as it is or as the cause of a new one.

Main statements: `Bridge.carry_sends`, what sending comes to; `Bridge.reconstruct_carried` and
`Bridge.reconstruct_preserved`, what arrives.

## Sections

1. Payloads that carry.
2. Sending.
3. The built-in handlers.
4. Reconstructing.
-/

namespace Ferry

open Account ExceptionGraph Holdings

/-- The payload that names an entry under its owner. -/
def Payload.naming (handle : Handle) (o : OwnerRef) : Payload :=
  { bytes := Token.encode handle, owner := some o }

/-- A status with one slot holds what its payload holds. -/
theorem Status.shares_of_slots {status : Status} {key : String} {payload : Payload}
    (hslots : status.slots = ⟨[(key, payload)]⟩) : status.shares = payload.shares := by
  cases howner : payload.owner <;>
    simp [shares, owners, payloads, KeyedList.values, hslots, Payload.shares, howner]

/-- Taking the only slot leaves a status without slots. -/
theorem Status.take?_of_slots {status : Status} {key : String} {payload : Payload}
    (hslots : status.slots = ⟨[(key, payload)]⟩) :
    status.take? key = some (payload, { status with slots := {} }) := by
  simp [take?, slot?, eraseSlot, hslots, KeyedList.find?, KeyedList.erase, KeyedList.eraseEntry]

namespace Holdings

variable {h h' : Holdings} {r : Nat} {handle : Handle} {o : OwnerRef} {e : ExceptionRef}
  {payload : Payload}

/-! ## §1 Payloads that carry -/

/-- A payload is a token of a live entry of an exception, and its owner answers for the entry. -/
structure Carries (h : Holdings) (r : Nat) (payload : Payload) (handle : Handle) (o : OwnerRef)
    (e : ExceptionRef) : Prop where
  parse_eq : Token.parse payload.bytes = .ok handle
  owner_eq : payload.owner = some o
  owns : h.owners.content? o = some (.entry r handle)
  borrow_eq : (h.registry r).borrow handle = .ok (.exception e)

theorem Carries.resolve_eq (hcarries : h.Carries r payload handle o e) :
    h.resolve r payload = .ok (handle, o) := by
  have hdecode := (decode_eq_ok_iff h r payload.bytes handle).mpr
    ⟨hcarries.parse_eq, _, hcarries.borrow_eq⟩
  have hentry : h.entryOf? o = some handle := by
    simp [entryOf?, hcarries.owns, Duty.handle?]
  exact (resolve_eq_ok_iff h r payload handle o).mpr ⟨hdecode, hcarries.owner_eq, hentry⟩

/-- What a payload carries can be taken out of it. -/
theorem Carries.unpackException (hcarries : h.Carries r payload handle o e) :
    (h.unpackException r payload).2 = .ok e := by
  have hconsume := consume_of_resolve hcarries.resolve_eq hcarries.owns hcarries.borrow_eq
  unfold Holdings.unpackException
  generalize h.consume r payload = consumed at hconsume
  obtain ⟨after, result⟩ := consumed
  cases hconsume
  rfl

/-! ## §2 Sending -/

/-- The holdings `h'` have one entry of an exception more than `h`, and a status names it from its
only slot under an owner of its own. -/
structure Sends (h h' : Holdings) (r : Nat) (slot : ExceptionSlot) (e : ExceptionRef)
    (status : Status) (handle : Handle) (o : OwnerRef) : Prop where
  slots_eq : status.slots = ⟨[(slot.key, .naming handle o)]⟩
  owns : h'.owners.content? o = some (.entry r handle)
  sole : h'.owners.holders o = 1
  unbound : h.bound r handle = none
  rebinds : Rebinds h h' r handle (some (.exception e))

theorem Sends.carries {slot : ExceptionSlot} {status : Status}
    (hsends : h.Sends h' r slot e status handle o) :
    h'.Carries r (.naming handle o) handle o e where
  parse_eq := Token.parse_encode handle
  owner_eq := rfl
  owns := hsends.owns
  borrow_eq := by
    rw [← bound_eq_some_iff, hsends.rebinds, if_pos ⟨rfl, rfl⟩]

end Holdings

namespace Bridge

variable {code : Code}

theorem carry_of_fails (b : Bridge) (h : Holdings) (hfails : code.isOk = false) (message : String)
    (slot : ExceptionSlot) (e : ExceptionRef) :
    b.carry h code message slot (some e)
      = ((h.mint b.registry (.exception e)).1,
          { code, message,
            slots := ⟨[(slot.key, (h.mint b.registry (.exception e)).2)]⟩ }) := by
  simp only [carry, hfails, Bool.false_eq_true, if_false, write, setSlot, Status.slot?,
    Status.setSlot, Status.new, Status.keptMessage, KeyedList.find?, KeyedList.insert,
    KeyedList.insertEntry, List.lookup_nil, dropOptional]

/-- An exception that is carried is sent. -/
theorem carry_sends {b : Bridge} {h : Holdings} (hr : b.registry < h.registries.size)
    (htidy : (h.registry b.registry).Tidy) (hfails : code.isOk = false) (message : String)
    (slot : ExceptionSlot) (e : ExceptionRef)
    (hslots : ((b.carry h code message slot (some e)).1.registry b.registry).slots.size
      ≤ 2 ^ 64) :
    h.Sends (b.carry h code message slot (some e)).1 b.registry slot e
      (b.carry h code message slot (some e)).2 (h.store b.registry (.exception e)).2
      (h.owners.insert (.entry b.registry (h.store b.registry (.exception e)).2)).2 := by
  rw [carry_of_fails b h hfails] at hslots ⊢
  obtain ⟨hunbound, hrebinds⟩ := store_rebinds hr htidy (.exception e) hslots
  refine
    { slots_eq := rfl
      owns := ?_
      sole := ?_
      unbound := hunbound
      rebinds := hrebinds }
  · show (h.owners.insert _).1.content? _ = _
    rw [Pool.content?_insert, if_pos rfl]
  · show (h.owners.insert _).1.holders _ = _
    have hcell := Pool.cell?_insert h.owners
      (.entry b.registry (h.store b.registry (.exception e)).2)
    exact Pool.holders_of_cell? ((hcell _).trans (if_pos rfl))

theorem exceptions_carry (b : Bridge) (h : Holdings) (hfails : code.isOk = false)
    (message : String) (slot : ExceptionSlot) (e : ExceptionRef) :
    (b.carry h code message slot (some e)).1.exceptions = h.exceptions := by
  rw [carry_of_fails b h hfails]
  rfl

end Bridge

/-! ## §3 The built-in handlers -/

/-- A bridge is built by registering handlers, on top of those that every bridge has. -/
inductive Bridge.Built : Bridge → Prop where
  | new (registry : Nat) (config : Config) : Built (Bridge.new registry config)
  | register {b b' : Bridge} {key : String} {handler : Handler} (hb : Built b)
      (hregister : b.register key handler = .ok b') : Built b'

/-- The built-in handler of a slot. -/
def ExceptionSlot.handler : ExceptionSlot → Handler
  | raw => .raw
  | cause => .cause

/-- The keys of the built-in handlers cannot be bound anew. -/
theorem Bridge.Built.get?_key {b : Bridge} (hb : b.Built) (slot : ExceptionSlot) :
    b.table.get? slot.key = some slot.handler := by
  induction hb with
  | new registry config =>
    have hget : Bridge.builtin.get? slot.key = _ := Bridge.get?_builtin slot
    cases slot <;> exact hget
  | @register b b' key handler _ hregister ih =>
    unfold Bridge.register at hregister
    cases htable : b.table.register key handler with
    | error fault =>
      rw [htable] at hregister
      cases hregister
    | ok table =>
      rw [htable] at hregister
      cases hregister
      -- Registering succeeded, so its key was not bound before.
      have hne : slot.key ≠ key := by
        rintro rfl
        have hbound : b.table.contains slot.key = true := by
          show (b.table.get? slot.key).isSome = true
          rw [ih]
          rfl
        have hfault := (HandlerTable.register_eq_error_iff b.table slot.key handler _).mpr
          ⟨hbound, rfl⟩
        rw [hfault] at htable
        cases htable
      exact (HandlerTable.get?_register_of_ne htable hne).trans ih

/-- A new exception that is raised from a given one has two shares of it. -/
theorem Draft.build_raiseFrom_fresh {α : Type} (g : ExceptionGraph) (refs : α → ExceptionRef)
    {source : α} {e : ExceptionRef} (hsource : refs source = e) (he : 0 < g.holders e)
    (kind : Kind) (message : String) :
    ∃ g' x, (raiseFrom (fresh kind message) (given source)).build g refs = (g', x) ∧ x ≠ e ∧
      g.cells.size ≤ x.index ∧ g.Grows g' ∧ g'.content? x = some (raisedNode kind message e) ∧
      g.holders e + 2 ≤ g'.holders e := by
  subst hsource
  obtain ⟨made, x, hmade, hcell, hnew, hmade_grows, hother⟩ := create_new g kind message
  obtain ⟨hne, hholders⟩ := hother (refs source) he
  have hshared := (Pool.cell?_retain made (refs source) x).trans (if_neg hne)
  rw [hcell] at hshared
  obtain ⟨raised, hraised, hraised_cell, hothers, hgrows⟩ := raiseFrom_new hshared hne
  refine ⟨raised, x, ?_, hne, hnew, ?_, ?_, ?_⟩
  · simp only [build, hmade, hraised]
  · exact hgrows _ (hmade_grows.trans (Pool.grows_retain made _)) hnew
  · rw [Pool.content?, hraised_cell]
    rfl
  · have hsame : raised.holders (refs source)
        = ((made.retain (refs source)).retain (refs source)).holders (refs source) := by
      unfold Pool.holders
      rw [hothers _ (Ne.symm hne)]
    have hfirst := Pool.holders_retain made (hholders.symm ▸ he) (refs source)
    rw [if_pos rfl] at hfirst
    have hlive : 0 < (made.retain (refs source)).holders (refs source) := by omega
    have hsecond := Pool.holders_retain (made.retain (refs source)) hlive (refs source)
    rw [if_pos rfl] at hsecond
    omega

namespace Handler

variable {h after : Holdings} {r : Nat} {e : ExceptionRef} {payload : Payload}

theorem run_raw (hunpack : h.unpackException r payload = (after, .ok e))
    (hitems : after.items.Attended) (hexceptions : after.exceptions.Attended)
    (he : 0 < after.exceptions.holders e) (strip : Bool) (status : Status) :
    raw.run h r strip payload status = (after, .ok e) := by
  have hback : (after.retainException e).dropException e = after :=
    Holdings.dropObject_retainObject hitems hexceptions (.exception e)
  -- The share that kept the exception alive for the answer goes before the one that was taken out.
  have hkept : ExceptionGraph.dropAll ((after.exceptions.retain e).retain e) [e]
      = after.exceptions.retain e :=
    ExceptionGraph.drop_retain (Pool.attended_retain hexceptions he) e
  simp only [run, raw, hunpack, realize, Draft.names, List.map_cons, List.map_nil, Option.elim,
    retainAll, List.foldl_cons, List.foldl_nil, Draft.build, hkept]
  exact congrArg (·, Except.ok e) hback

/-- Raising takes a new exception and leaves the others as they are. -/
theorem run_cause (hunpack : h.unpackException r payload = (after, .ok e))
    (he : 0 < after.exceptions.holders e) (strip : Bool) (status : Status) :
    ∃ g x, cause.run h r strip payload status = (after.withExceptions g, .ok x) ∧
      after.exceptions.cells.size ≤ x.index ∧ after.exceptions.Grows g ∧
      g.content? x
        = some (raisedNode (Kind.ofCode status.code) (status.plainMessage strip) e) := by
  have hkept := Pool.holders_retain after.exceptions he e
  rw [if_pos rfl] at hkept
  have hlive : 0 < (after.exceptions.retain e).holders e := by omega
  have hnone : Option.elim (none : Option after.exceptions.Live) e ExceptionGraph.Live.ref = e :=
    rfl
  obtain ⟨raised, x, hbuild, hne, hnew, hgrows, hnode, hmore⟩ := Draft.build_raiseFrom_fresh
    (after.exceptions.retain e) (Option.elim · e ExceptionGraph.Live.ref) hnone hlive
    (Kind.ofCode status.code) (status.plainMessage strip)
  -- The new exception has two shares of the other, so neither the one that kept the other alive
  -- nor the one that came with it is the last.
  have hfirst : ExceptionGraph.dropAll raised [e] = (raised.release e).1 :=
    drop_of_shared (by omega)
  have hless : 1 < (raised.release e).1.holders e := by
    rw [Pool.holders_release, if_pos rfl]
    omega
  refine ⟨((raised.release e).1.release e).1, x, ?_, ?_, ?_, ?_⟩
  · simp only [run, cause, hunpack, realize, Notice.plain, Draft.names, List.nil_append,
      List.map_cons, List.map_nil, Option.elim_none, retainAll, List.foldl_cons, List.foldl_nil,
      hbuild, hfirst, Holdings.dropException_eq, drop_of_shared hless]
    rfl
  · exact (Pool.grows_retain after.exceptions e).size_le.trans hnew
  · exact ((Pool.grows_retain after.exceptions e).trans hgrows).trans
      ((Pool.grows_release raised e).trans (Pool.grows_release (raised.release e).1 e))
  · rw [Pool.content?_release_of_ne _ hne, Pool.content?_release_of_ne raised hne]
    exact hnode

end Handler

/-! ## §4 Reconstructing -/

/-- What is raised for an exception in a slot: the exception itself, or a new one that has it as its
cause and as its context. -/
def ExceptionSlot.Raises (before after : ExceptionGraph) (kind : Kind) (message : String)
    (e raised : ExceptionRef) : ExceptionSlot → Prop
  | raw => raised = e
  | cause => before.cells.size ≤ raised.index ∧
      after.content? raised = some (raisedNode kind message e)

/-- What a payload carries comes out of it alive. -/
theorem Holdings.Carries.unpacked {h : Holdings} {r : Nat} {payload : Payload} {handle : Handle}
    {o : OwnerRef} {e : ExceptionRef} (hcarries : h.Carries r payload handle o e)
    {rest : Multiset Share} {d : Dealings}
    (ha : Consistent ⟨h, (payload.shares : Multiset Share) + rest, d⟩) :
    ∃ after, h.unpackException r payload = (after, .ok e) ∧ after.items.Attended ∧
      after.exceptions.Attended ∧ 0 < after.exceptions.holders e ∧
      h.exceptions.Grows after.exceptions := by
  have hresult := hcarries.unpackException
  have hgrows := grows_unpackException h r payload
  have hafter := (unpackException_transfer h r payload rest d ha).consistent ha
  generalize h.unpackException r payload = unpacked at *
  obtain ⟨after, result⟩ := unpacked
  cases hresult
  refine ⟨after, rfl, hafter.items_attended, hafter.exceptions_attended, ?_, hgrows⟩
  have hmem : Share.exception e ∈ Holdings.foundException (.ok e) + rest :=
    Multiset.mem_add.mpr (Or.inl (Multiset.mem_singleton_self _))
  exact hafter.holders_pos hmem

namespace Bridge

variable {b : Bridge} {h : Holdings} {status : Status} {payload : Payload}

/-- A status with one slot is given to the handler of the slot. -/
theorem classify_of_slots {key : String} {handler : Handler}
    (hslots : status.slots = ⟨[(key, payload)]⟩) (hget : b.table.get? key = some handler) :
    b.classify status = .handler key := by
  refine classify_eq_handler_iff.mpr ⟨by simp [Status.keys, KeyedList.keys, hslots], ?_⟩
  show (b.table.get? key).isSome = true
  rw [hget]
  rfl

/-- A failure with one slot is raised by the handler of the slot. -/
theorem reconstruct_of_slots {key : String} {handler : Handler} (hfails : status.isOk = false)
    (hslots : status.slots = ⟨[(key, payload)]⟩) (hget : b.table.get? key = some handler) :
    b.reconstruct h status = b.handle h handler payload { status with slots := {} } := by
  have hclass : b.classify status = .handler key := classify_of_slots hslots hget
  have htake := Status.take?_of_slots hslots
  simp only [reconstruct, hfails, Bool.false_eq_true, if_false, hclass, hget, htake]

theorem handle_of_run {handler : Handler} {after : Holdings} {e : ExceptionRef}
    (hrun : handler.run h b.registry b.config.strip payload { status with slots := {} }
      = (after, .ok e)) :
    b.handle h handler payload { status with slots := {} } = (after, .ok (some e)) := by
  have hdrop : after.dropStatus { status with slots := {} } = after := Holdings.releaseAll_nil after
  simp only [handle, hrun, hdrop]

/-- A status that carries an exception raises what its slot says, and no exception is changed. -/
theorem reconstruct_carried (hb : b.Built) (slot : ExceptionSlot) (hfails : status.isOk = false)
    (hslots : status.slots = ⟨[(slot.key, payload)]⟩) {handle : Handle} {o : OwnerRef}
    {e : ExceptionRef} (hcarries : h.Carries b.registry payload handle o e)
    {rest : Multiset Share} {d : Dealings}
    (ha : Consistent ⟨h, (payload.shares : Multiset Share) + rest, d⟩) :
    ∃ after raised, b.reconstruct h status = (after, .ok (some raised)) ∧
      h.exceptions.Grows after.exceptions ∧
      slot.Raises h.exceptions after.exceptions (Kind.ofCode status.code)
        (b.messageFor status (Kind.ofCode status.code)) e raised := by
  obtain ⟨after, hunpack, hitems, hexceptions, he, hgrows⟩ := hcarries.unpacked ha
  rw [reconstruct_of_slots hfails hslots (hb.get?_key slot)]
  cases slot with
  | raw =>
    have hrun := Handler.run_raw hunpack hitems hexceptions he b.config.strip
      { status with slots := {} }
    exact ⟨after, e, handle_of_run hrun, hgrows, rfl⟩
  | cause =>
    obtain ⟨g, x, hrun, hnew, hgrows', hnode⟩ := Handler.run_cause hunpack he b.config.strip
      { status with slots := {} }
    exact ⟨after.withExceptions g, x, handle_of_run hrun, hgrows.trans hgrows',
      hgrows.size_le.trans hnew, hnode⟩

/-- What is raised leads to what was sent. -/
theorem exists_content_of_raises {a : Account} (ha : a.Consistent) {raised : ExceptionRef}
    (hhand : Share.exception raised ∈ a.hand) {slot : ExceptionSlot} {g : ExceptionGraph}
    {kind : Kind} {message : String} {e : ExceptionRef}
    (hraises : slot.Raises g a.holdings.exceptions kind message e raised) :
    ∃ node, a.holdings.exceptions.content? e = some node := by
  cases slot with
  | raw =>
    cases hraises
    exact ha.exists_content_of_hand hhand
  | cause => exact ha.closed raised e ⟨_, hraises.2, List.mem_cons_self⟩

/-- What was sent is raised as it was, with all that it leads to. -/
theorem reconstruct_preserved (hb : b.Built) (slot : ExceptionSlot) (hfails : status.isOk = false)
    (hslots : status.slots = ⟨[(slot.key, payload)]⟩) {handle : Handle} {o : OwnerRef}
    {e : ExceptionRef} (hcarries : h.Carries b.registry payload handle o e)
    {rest : Multiset Share} {d : Dealings}
    (ha : Consistent ⟨h, (status.shares : Multiset Share) + rest, d⟩) :
    ∃ after raised, b.reconstruct h status = (after, .ok (some raised)) ∧
      h.exceptions.Preserved after.exceptions e ∧
      slot.Raises h.exceptions after.exceptions (Kind.ofCode status.code)
        (b.messageFor status (Kind.ofCode status.code)) e raised := by
  obtain ⟨after, raised, hresult, hgrows, hraises⟩ := reconstruct_carried hb slot hfails hslots
    hcarries (Status.shares_of_slots hslots ▸ ha)
  have hafter := (b.reconstruct_transfer h status rest d ha).consistent ha
  rw [hresult] at hafter
  -- What was raised is in hand, and what it leads to is alive.
  obtain ⟨node, hnode⟩ :=
    Pool.exists_content_of_holders_pos (ha.holders_pos_of_borrow hcarries.borrow_eq)
  obtain ⟨later, hlater⟩ := exists_content_of_raises hafter
    (Multiset.mem_add.mpr (Or.inl (List.mem_singleton_self _))) hraises
  exact ⟨after, raised, hresult,
    preserved_of_grows hgrows ha.closed hafter.closed hnode hlater, hraises⟩

end Bridge

end Ferry
