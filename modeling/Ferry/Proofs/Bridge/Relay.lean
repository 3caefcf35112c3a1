import Ferry.Bridge.Hop
import Ferry.Proofs.Bridge.Dispatch

/-!
# Chains of any depth

Passing a failure on adds one exception to a chain, whether the outer exception is made at once and
captured or only when the next status is raised.  However many hops follow one another, the chain
that the last status is raised to has all of them in order, over the exception that the first status
stood for; and of all the entries that were made on the way one is left, the one that the last
status names.

One hop is a leg of a relay: it begins with an exception in hand and a registry that has room, and
as soon as its status is raised the next exception is in hand and the registry is as it was
(`exists_leg`).  So legs can be joined (`Relays.join`).

Main statement: `chained_after`, what becomes of a status in any row of hops after a script.

## Sections

1. Room for an entry.
2. Chains that grow.
3. Back to where the registries were.
4. Carried and raised.
5. One hop.
6. Rows of hops.
7. After a script.
-/

namespace Ferry

open Account ExceptionGraph Holdings

/-! ## §1 Room for an entry -/

namespace Registry

variable {α : Type} {registry : Registry α}

/-- Whatever object is stored next, words are enough to number the slots. -/
def Room (registry : Registry α) : Prop :=
  ∀ object, (registry.store object).1.slots.size ≤ 2 ^ 64

theorem room_of_size_lt (hsize : registry.slots.size < 2 ^ 64) : registry.Room := by
  intro object
  unfold store
  split
  · simp only [record, Array.size_modify]
    omega
  · simp only [record, Array.size_push]
    omega

/-- A slot that was given up has room, however many others there are. -/
theorem room_vacateAt (hsize : registry.slots.size ≤ 2 ^ 64) (index : Nat) :
    (registry.vacateAt index).Room := by
  intro object
  simpa [store, vacateAt, record] using hsize

end Registry

namespace Holdings

/-- A cascade gives slots up but takes none away. -/
theorem slots_size_releaseAll {h : Holdings} (htidy : ∀ r, (h.registry r).Tidy)
    (pending : List Share) (r : Nat) :
    ((h.releaseAll pending).registry r).slots.size = (h.registry r).slots.size := by
  induction h, pending using releaseAll.induct with
  | case1 h => rw [releaseAll_nil]
  | case2 h share rest settled ih =>
    rw [releaseAll_cons, ih (tidy_settle htidy share)]
    rcases settle_registry_cases htidy share r with heq | ⟨_, _, hvacated⟩
    · rw [heq]
    · exact hvacated.size_eq

end Holdings

/-! ## §2 Chains that grow -/

namespace Bridge

/-- What a hop adds to a chain: an exception without frames whose cause and context are the inner
one.  A chained failure has the kind and message of the hop, verbatim; a wrapped one has the kind of
the hop's code and the message that its status is raised with. -/
def Hop.node (b : Bridge) (inner : ExceptionRef) : Hop → Node
  | chain kind message => raisedNode kind message inner
  | wrap code message => raisedNode (Kind.ofCode code)
      (b.messageFor (Status.new code message) (Kind.ofCode code)) inner

/-- The hop passes failures on as failures. -/
def Hop.Fails : Hop → Prop
  | chain _ _ => True
  | wrap code _ => code.isOk = false

/-- Beginning with an exception, every hop has added its exception on top of the one before. -/
inductive Stacked (b : Bridge) (g : ExceptionGraph) : ExceptionRef → List Hop → ExceptionRef → Prop
  where
  | nil {x : ExceptionRef} : Stacked b g x [] x
  | cons {x y z : ExceptionRef} {step : Hop} {rest : List Hop}
      (hnode : g.content? y = some (step.node b x)) (hrest : Stacked b g y rest z) :
      Stacked b g x (step :: rest) z

variable {b : Bridge} {g : ExceptionGraph} {x y z : ExceptionRef} {step : Hop} {steps : List Hop}

/-- The outer exception of a hop is linked to the inner one and was raised from it. -/
theorem Hop.links_of_node (hnode : g.content? y = some (step.node b x)) : g.Links y x := by
  refine ⟨_, hnode, ?_⟩
  cases step <;> exact List.mem_cons_self

theorem Hop.origin_of_node (hnode : g.content? y = some (step.node b x)) :
    g.origin? y = some x := by
  rw [origin?, hnode]
  cases step <;> rfl

/-- The chain goes on above with one exception for each hop. -/
theorem Stacked.exists_isChain (hstacked : Stacked b g x steps z) {chain : List ExceptionRef}
    (hchain : g.IsChain x chain) :
    ∃ whole, g.IsChain z whole ∧ whole.length = steps.length + chain.length := by
  induction hstacked generalizing chain with
  | nil => exact ⟨chain, hchain, (Nat.zero_add _).symm⟩
  | @cons x y z step rest hnode _ ih =>
    obtain ⟨whole, hwhole, hlength⟩ := ih (.cons (Hop.origin_of_node hnode) hchain)
    refine ⟨whole, hwhole, ?_⟩
    rw [hlength, List.length_cons, List.length_cons]
    omega

end Bridge

/-! ## §3 Back to where the registries were -/

namespace Holdings

variable {h h' h'' : Holdings} {r : Nat} {handle : Handle} {o : OwnerRef} {e : ExceptionRef}
  {slot : ExceptionSlot} {status : Status}

/-- What a status was sent from counts by its bindings only. -/
theorem Sends.of_bound_eq (hsends : h'.Sends h'' r slot e status handle o)
    (hbound : h'.bound = h.bound) : h.Sends h'' r slot e status handle o where
  slots_eq := hsends.slots_eq
  owns := hsends.owns
  sole := hsends.sole
  unbound := hbound ▸ hsends.unbound
  rebinds r' other := by rw [hsends.rebinds, hbound]

/-- Dropping a status that was sent removes the entry that was made for it. -/
theorem Sends.registries_dropStatus (hsends : h.Sends h' r slot e status handle o) :
    (h'.dropStatus status).registries = (h'.fetch r handle).1.registries := by
  have hgone := Pool.release_snd_of_last hsends.owns (Nat.le_of_eq hsends.sole)
  have hfetch : (h'.registry r).fetch handle
      = .ok ((h'.registry r).vacateAt handle.slot.toNat, .exception e) :=
    (Registry.fetch_eq_ok_iff _ _ _ _).mpr ⟨hsends.carries.borrow_eq, rfl⟩
  have hsettle : (h'.settle (.owner o)).2 = [.object (.exception e)] ∧
      (h'.settle (.owner o)).1.registries = (h'.fetch r handle).1.registries := by
    have hsame : ({ h' with owners := (h'.owners.release o).1 } : Holdings).registry r
        = h'.registry r := rfl
    simp only [settle, hgone, discharge, hsame, fetch, hfetch, handOver]
    exact ⟨trivial, rfl⟩
  rw [dropStatus, Status.shares_of_slots hsends.slots_eq]
  show (h'.releaseAll [.owner o]).registries = _
  rw [releaseAll_cons, hsettle.1, List.append_nil]
  show ((h'.settle (.owner o)).1.dropException e).registries = _
  rw [dropException_eq]
  exact hsettle.2

/-- Once the status is dropped the registries are as they were, and the slot of its entry leaves
room. -/
theorem Sends.back (hsends : h.Sends h' r slot e status handle o) (htidy : (h'.registry r).Tidy)
    (hslots : (h'.registry r).slots.size ≤ 2 ^ 64)
    (hregistries : h''.registries = (h'.dropStatus status).registries) :
    h''.bound = h.bound ∧ (h''.registry r).Room := by
  have hborrow := hsends.carries.borrow_eq
  rw [hsends.registries_dropStatus] at hregistries
  constructor
  · rw [bound_congr hregistries]
    exact hsends.rebinds.back hsends.unbound (fetch_rebinds htidy hborrow).2
  · have hfetch := (Registry.fetch_eq_ok_iff _ _ _ _).mpr ⟨hborrow, rfl⟩
    obtain ⟨hr, _⟩ := vacated_of_fetch htidy hfetch
    rw [registry_eq hregistries, fetch, hfetch, handOver, registry_setRegistry_self hr]
    exact Registry.room_vacateAt hslots _

end Holdings

namespace Bridge

variable {b : Bridge} {h h' h'' : Holdings} {e x y z : ExceptionRef} {rest : Multiset Share}
  {d : Dealings}

/-! ## §4 Carried and raised -/

/-- An exception is in hand, and the registry of the bridge has room for it. -/
structure Ready (b : Bridge) (h : Holdings) (e : ExceptionRef) (rest : Multiset Share)
    (d : Dealings) : Prop where
  consistent : Consistent ⟨h, {Share.exception e} + rest, d⟩
  registry_lt : b.registry < h.registries.size
  room : (h.registry b.registry).Room

/-- What is in hand is alive. -/
theorem Ready.exists_content (hready : Ready b h e rest d) :
    ∃ node, h.exceptions.content? e = some node :=
  hready.consistent.exists_content_of_hand (by simp)

/-- Apart from the exceptions, raising leaves what dropping leaves. -/
theorem registries_of_reconstruct {a : Account} (ha : a.Consistent) {status : Status}
    {result : Except Fault (Option ExceptionRef)}
    (hresult : b.reconstruct a.holdings status = (h', result)) :
    h'.registries = (a.holdings.dropStatus status).registries := by
  have hbare := bare_reconstruct ha.items_attended ha.exceptions_attended b status
  rw [hresult] at hbare
  exact (congrArg Holdings.registries hbare :)

theorem isOk_carry (b : Bridge) (h : Holdings) {code : Code} (hfails : code.isOk = false)
    (message : String) (slot : ExceptionSlot) (e : ExceptionRef) :
    (b.carry h code message slot (some e)).2.isOk = false := by
  rw [carry_of_fails b h hfails]
  exact hfails

/-- An exception that is carried is sent, and raising its status leaves the registries as they were
before. -/
theorem Ready.carry (hready : Ready b h e rest d) (hb : b.Built) {code : Code}
    (hfails : code.isOk = false) (message : String) (slot : ExceptionSlot) :
    let sent := b.carry h code message slot (some e)
    ∃ handle o after raised, h.Sends sent.1 b.registry slot e sent.2 handle o ∧
      b.reconstruct sent.1 sent.2 = (after, .ok (some raised)) ∧
      h.exceptions.Grows after.exceptions ∧
      slot.Raises h.exceptions after.exceptions (Kind.ofCode code)
        (b.messageFor (Status.new code message) (Kind.ofCode code)) e raised ∧
      after.bound = h.bound ∧ Ready b after raised rest d := by
  intro sent
  have hcarried : sent = _ := b.carry_of_fails h hfails message slot e
  have hcarry := b.carry_transfer h hready.registry_lt code message slot (some e) rest d
    hready.consistent
  have hsent := hcarry.consistent hready.consistent
  have hslots : (sent.1.registry b.registry).slots.size ≤ 2 ^ 64 := by
    have hmint : sent.1.registries = (h.store b.registry (.exception e)).1.registries := by
      rw [hcarried]
      rfl
    rw [registry_eq hmint, store, registry_setRegistry_self hready.registry_lt]
    exact hready.room _
  have hsends := carry_sends hready.registry_lt (hready.consistent.tidy _) hfails message slot e
    hslots
  obtain ⟨after, raised, hresult, hgrows, hraises⟩ := reconstruct_carried hb slot
    (b.isOk_carry h hfails message slot e) hsends.slots_eq hsends.carries
    (Status.shares_of_slots hsends.slots_eq ▸ hsent)
  rw [b.exceptions_carry h hfails message slot e] at hgrows hraises
  obtain ⟨hbound, hroom⟩ := hsends.back (hsent.tidy _) hslots
    (registries_of_reconstruct hsent hresult)
  have hrun := b.reconstruct_transfer sent.1 sent.2 rest d hsent
  rw [hresult] at hrun
  have hsize : after.registries.size = h.registries.size :=
    hrun.run.size_eq.trans hcarry.run.size_eq
  refine ⟨_, _, after, raised, hsends, hresult, hgrows, ?_, hbound, ?_⟩
  · have hnew : Status.new code message = { code, message } := by
      simp only [Status.new, Status.keptMessage, hfails, Bool.false_eq_true, if_false]
    have hvalue : sent.2 = _ := congrArg Prod.snd hcarried
    rw [hvalue] at hraises
    rw [hnew]
    exact hraises
  · exact ⟨hrun.consistent hsent, hsize.symm ▸ hready.registry_lt, hroom⟩

/-! ## §5 One hop -/

/-- What a hop does with the exception that the inner status stands for. -/
def forward (b : Bridge) (h : Holdings) (inner : ExceptionRef) : Hop → Holdings × Status
  | .chain kind message => b.captureFrom h kind message (some inner)
  | .wrap code message => b.carryCause h code message (some inner)

/-- A row of hops begins by raising the status. -/
theorem hops_of_reconstruct {status : Status} (hfails : status.isOk = false)
    (hresult : b.reconstruct h status = (h', .ok (some x))) (step : Hop) (steps : List Hop) :
    b.hops h status (step :: steps)
      = b.hops (b.forward h' x step).1 (b.forward h' x step).2 steps := by
  cases step <;> simp only [hops, hop, hfails, hresult, Bool.false_eq_true, if_false, forward]

/-- From an exception in hand, hops have led to a failure that is sent in its only slot.  When it is
raised, the chain stands on the exception that it began with, and the registries are as they were
at the beginning. -/
structure Relays (b : Bridge) (h : Holdings) (x : ExceptionRef) (steps : List Hop)
    (h' : Holdings) (last : Status) (h'' : Holdings) (z : ExceptionRef) : Prop where
  fails : last.isOk = false
  /-- One entry was added, and the status names it. -/
  sends : ∃ slot e handle o, h.Sends h' b.registry slot e last handle o
  reconstruct_eq : b.reconstruct h' last = (h'', .ok (some z))
  stacked : Stacked b h''.exceptions x steps z
  /-- What the chain stands on is as it was, with all that it leads to. -/
  preserved : h.exceptions.Preserved h''.exceptions x
  bound_eq : h''.bound = h.bound

/-- A hop is a leg if what it carries is raised as the exception that it adds. -/
theorem Ready.leg (hready : Ready b h x rest d) (hmiddle : Ready b h' e rest d)
    (hregistries : h'.registries = h.registries) (hgrows : h.exceptions.Grows h'.exceptions)
    (hb : b.Built) {code : Code} (hfails : code.isOk = false) (message : String)
    (slot : ExceptionSlot) {step : Hop}
    (hnode : ∀ g raised, h'.exceptions.Grows g → (∃ node, g.content? raised = some node) →
      slot.Raises h'.exceptions g (Kind.ofCode code)
        (b.messageFor (Status.new code message) (Kind.ofCode code)) e raised →
      g.content? raised = some (step.node b x)) :
    let sent := b.carry h' code message slot (some e)
    ∃ after y, Relays b h x [step] sent.1 sent.2 after y ∧ Ready b after y rest d := by
  intro sent
  obtain ⟨handle, o, after, raised, hsends, hresult, hgrows', hraises, hbound, hafter⟩ :=
    hmiddle.carry hb hfails message slot
  have hadded := hnode after.exceptions raised hgrows' hafter.exists_content hraises
  have hsame := bound_congr hregistries
  obtain ⟨before, hbefore⟩ := hready.exists_content
  obtain ⟨later, hlater⟩ := hafter.consistent.closed _ _ (Hop.links_of_node hadded)
  refine ⟨after, raised, ?_, hafter⟩
  exact
    { fails := b.isOk_carry h' hfails message slot e
      sends := ⟨slot, e, handle, o, hsends.of_bound_eq hsame⟩
      reconstruct_eq := hresult
      stacked := .cons hadded .nil
      preserved := preserved_of_grows (hgrows.trans hgrows') hready.consistent.closed
        hafter.consistent.closed hbefore hlater
      bound_eq := hbound.trans hsame }

/-- Capturing an exception and letting it go is carrying it. -/
theorem dropException_capture (hattended : h.exceptions.Attended) {node : Node}
    (hnode : h.exceptions.content? e = some node) :
    ((b.capture h e).1.dropException e, (b.capture h e).2)
      = b.carry h node.kind.code node.message .raw (some e) := by
  have hgraph : ((h.retainException e).mint b.registry (.exception e)).1.exceptions
      = h.exceptions.retain e := rfl
  simp only [capture, hnode, carry_of_fails _ _ node.kind.isOk_code, dropException_eq, hgraph,
    drop_retain hattended]
  rfl

/-- A chained failure is carried by a new exception that is raised from the inner one. -/
theorem Ready.captureFrom (hready : Ready b h x rest d) (kind : Kind) (message : String) :
    ∃ g y, b.captureFrom h kind message (some x)
        = b.carry (h.withExceptions g) kind.code message .raw (some y) ∧
      h.exceptions.Grows g ∧ g.content? y = some (raisedNode kind message x) ∧
      Ready b (h.withExceptions g) y rest d := by
  obtain ⟨made, y, hmade, hcell, hnew, hgrows, hother⟩ := create_new h.exceptions kind message
  have hx : 0 < h.exceptions.holders x :=
    hready.consistent.holders_pos (s := .exception x) (by simp)
  obtain ⟨g, hraised, hraised_cell, _, hgrows'⟩ := raiseFrom_new hcell (hother x hx).1
  -- The new exception takes over the share of the inner one.
  have hmake := (newException_transfer h kind message).onTop {Share.exception x}
  have hraise := raiseFrom_transfer h made y x
  have htransfer : Transfer h {Share.exception x} (h.withExceptions g) {Share.exception y} := by
    simp only [newException, hmade] at hmake
    rw [hraised] at hraise
    exact hmake.trans hraise
  have hrun := htransfer rest d hready.consistent
  have hafter := hrun.consistent hready.consistent
  have hnode : g.content? y = some (raisedNode kind message x) := by
    rw [Pool.content?, hraised_cell]
    rfl
  refine ⟨g, y, ?_, hgrows' _ hgrows hnew, hnode, hafter, hready.registry_lt, hready.room⟩
  have hcaptured := dropException_capture (b := b) hafter.exceptions_attended hnode
  simp only [Bridge.captureFrom, newException, hmade, hraised]
  exact hcaptured

theorem exists_leg (hready : Ready b h x rest d) (hb : b.Built) {step : Hop}
    (hfails : step.Fails) :
    ∃ after y, Relays b h x [step] (b.forward h x step).1 (b.forward h x step).2 after y ∧
      Ready b after y rest d := by
  cases step with
  | chain kind message =>
    obtain ⟨g, y, hcaptured, hgrows, hnode, hmiddle⟩ := hready.captureFrom kind message
    simp only [forward, hcaptured]
    refine hready.leg hmiddle rfl hgrows hb kind.isOk_code message .raw ?_
    rintro after raised hgrows' ⟨node, hcontent⟩ rfl
    -- The new exception is raised as it is.
    have hsame := hgrows'.content raised node (Pool.index_lt_of_content hnode) hcontent
    rw [hcontent, ← hsame]
    exact hnode
  | wrap code message =>
    refine hready.leg hready rfl (Pool.Grows.refl _) hb hfails message .cause ?_
    intro after raised _ _ hraises
    exact hraises.2

/-! ## §6 Rows of hops -/

variable {step : Hop} {steps : List Hop} {status last : Status} {middle : Holdings}

/-- A leg and what follows it make one relay. -/
theorem Relays.join {first : Holdings × Status}
    (hleg : Relays b h x [step] first.1 first.2 middle y)
    (hrest : Relays b middle y steps h' last h'' z) :
    Relays b h x (step :: steps) h' last h'' z := by
  have hnode : middle.exceptions.content? y = some (step.node b x) := by
    cases hleg.stacked with
    | cons hnode hnil =>
      cases hnil
      exact hnode
  obtain ⟨slot, e, handle, o, hsends⟩ := hrest.sends
  exact
    { fails := hrest.fails
      sends := ⟨slot, e, handle, o, hsends.of_bound_eq hleg.bound_eq⟩
      reconstruct_eq := hrest.reconstruct_eq
      stacked := .cons (hrest.preserved.content_eq hnode) hrest.stacked
      preserved := hleg.preserved.trans (hrest.preserved.of_links (Hop.links_of_node hnode))
      bound_eq := hrest.bound_eq.trans hleg.bound_eq }

/-- However many hops follow the first one, all of them are passed. -/
theorem exists_relays (hb : b.Built) (hready : Ready b h x rest d)
    (hfails : ∀ s ∈ step :: steps, s.Fails) :
    ∃ h' last h'' z,
      b.hops (b.forward h x step).1 (b.forward h x step).2 steps = (h', .ok last) ∧
        Relays b h x (step :: steps) h' last h'' z ∧ Ready b h'' z rest d := by
  induction steps generalizing h x step with
  | nil =>
    obtain ⟨after, y, hleg, hafter⟩ := exists_leg hready hb (hfails step List.mem_cons_self)
    exact ⟨_, _, after, y, rfl, hleg, hafter⟩
  | cons next steps ih =>
    obtain ⟨after, y, hleg, hafter⟩ := exists_leg hready hb (hfails step List.mem_cons_self)
    obtain ⟨h', last, h'', z, hhops, hrest, hend⟩ := ih hafter fun s hs =>
      hfails s (List.mem_cons_of_mem step hs)
    refine ⟨h', last, h'', z, ?_, hleg.join hrest, hend⟩
    -- The next hop begins by raising what this one has sent.
    rw [hops_of_reconstruct hleg.fails hleg.reconstruct_eq]
    exact hhops

/-- Success passes any row of hops unchanged. -/
theorem hops_of_isOk (hok : status.isOk = true) (steps : List Hop) :
    b.hops h status steps = (h, .ok status) := by
  induction steps with
  | nil => exact hops_nil b h status
  | cons step steps ih => simp only [hops, hop_of_isOk step hok, ih]

/-- If a status cannot be raised, a hop reports the fault. -/
theorem hop_of_error {fault : Fault} (hresult : b.reconstruct h status = (h', .error fault))
    (step : Hop) : b.hop h status step = (h', .error fault) := by
  have hfails : status.isOk = false := by
    by_contra hok
    rw [reconstruct_of_isOk (Bool.eq_true_of_not_eq_false hok)] at hresult
    cases hresult
  simp only [hop, hfails, hresult, Bool.false_eq_true, if_false]

theorem settlePlain_ne_none (b : Bridge) (h : Holdings) (status : Status) :
    (b.settlePlain h status).2 ≠ .ok none := by
  simp [settlePlain]

theorem handle_ne_none (b : Bridge) (h : Holdings) (handler : Handler) (payload : Payload)
    (status : Status) : (b.handle h handler payload status).2 ≠ .ok none := by
  unfold handle
  split
  · simp
  · cases b.config.onUnresolved with
    | fail => simp
    | fallback => exact b.settlePlain_ne_none _ status

/-- A failure never stands for no exception. -/
theorem reconstruct_ne_none (hfails : status.isOk = false) :
    (b.reconstruct h status).2 ≠ .ok none := by
  simp only [reconstruct, hfails, Bool.false_eq_true, if_false]
  split
  · split
    · exact b.handle_ne_none h _ _ _
    · exact b.settlePlain_ne_none h status
  · exact b.settlePlain_ne_none h status
  · exact b.settlePlain_ne_none h status

/-- One exception was added for each hop. -/
theorem Relays.depth_eq (hrelays : Relays b h x steps h' last h'' z) (hready : Ready b h x rest d)
    (hend : Ready b h'' z rest d) (hfounded : Founded h.exceptions) :
    depth h''.exceptions z = steps.length + depth h.exceptions x := by
  obtain ⟨chain, hchain⟩ := hfounded.exists_isChain x
  obtain ⟨whole, hwhole, hlength⟩ :=
    hrelays.stacked.exists_isChain (hchain.of_preserved hrelays.preserved)
  obtain ⟨inner, hinner⟩ := hready.exists_content
  obtain ⟨outer, houter⟩ := hend.exists_content
  rw [depth, depth, hwhole.chain_eq hend.consistent.closed houter,
    hchain.chain_eq hready.consistent.closed hinner, hlength]

/-- What becomes of a status in a row of hops. -/
structure Chained (b : Bridge) (h : Holdings) (status : Status) (steps : List Hop) : Prop where
  /-- Success is handed back by every hop, and nothing happens. -/
  success : status.isOk = true →
    (∀ step, b.hop h status step = (h, .ok status)) ∧ b.hops h status steps = (h, .ok status)
  /-- If the status cannot be raised, the first hop reports the fault, and no other hop follows. -/
  fault : ∀ after fault, b.reconstruct h status = (after, .error fault) →
    (∀ step, b.hop h status step = (after, .error fault)) ∧
      b.hops h status steps = (after, .error fault)
  /-- Otherwise the chain stands on what the status is raised as, and the entries that remain when
  the status is dropped remain. -/
  raised : status.isOk = false → ∀ after found, b.reconstruct h status = (after, .ok found) →
    after.registries = (h.dropStatus status).registries ∧
      ∃ x h' last h'' z, found = some x ∧ b.hops h status steps = (h', .ok last) ∧
        Relays b after x steps h' last h'' z ∧
        depth h''.exceptions z = steps.length + depth after.exceptions x
  /-- An exception that was sent as it is stands for itself. -/
  asSent : status.isOk = false → ∀ payload handle o e,
    status.slots = ⟨[(ExceptionSlot.raw.key, payload)]⟩ →
    h.Carries b.registry payload handle o e →
    ∃ after, b.reconstruct h status = (after, .ok (some e)) ∧
      h.exceptions.Preserved after.exceptions e

/-- When a status in hand is raised, its exception is ready for the first hop. -/
theorem ready_of_reconstruct (hr : b.registry < h.registries.size)
    (hslots : (h.registry b.registry).slots.size < 2 ^ 64)
    (ha : Consistent ⟨h, (status.shares : Multiset Share) + rest, d⟩)
    (hresult : b.reconstruct h status = (h', .ok (some x))) :
    h'.registries = (h.dropStatus status).registries ∧ Ready b h' x rest d := by
  have hregistries := registries_of_reconstruct ha hresult
  have hrun := b.reconstruct_transfer h status rest d ha
  rw [hresult] at hrun
  refine ⟨hregistries, hrun.consistent ha, hrun.run.size_eq.symm ▸ hr, ?_⟩
  refine Registry.room_of_size_lt ?_
  rw [registry_eq (h := h.dropStatus status) hregistries]
  exact (slots_size_releaseAll ha.tidy status.shares b.registry).symm ▸ hslots

/-- A status in hand is chained. -/
theorem chained_of_consistent (hb : b.Built) (hr : b.registry < h.registries.size)
    (hslots : (h.registry b.registry).slots.size < 2 ^ 64) (hfounded : Founded h.exceptions)
    (ha : Consistent ⟨h, (status.shares : Multiset Share) + rest, d⟩) (hne : steps ≠ [])
    (hfails : ∀ step ∈ steps, step.Fails) : Chained b h status steps := by
  obtain ⟨step, steps, rfl⟩ := List.exists_cons_of_ne_nil hne
  refine
    { success := fun hok => ⟨fun step => hop_of_isOk step hok, hops_of_isOk hok _⟩
      fault := fun after fault hresult => ⟨hop_of_error hresult, ?_⟩
      raised := fun hfailure after found hresult => ?_
      asSent := fun hfailure payload handle o e hkey hcarries => ?_ }
  · simp only [hops, hop_of_error hresult step]
  · cases found with
    | none => exact absurd (congrArg Prod.snd hresult) (reconstruct_ne_none hfailure)
    | some x =>
      obtain ⟨hregistries, hready⟩ := ready_of_reconstruct hr hslots ha hresult
      obtain ⟨h', last, h'', z, hhops, hrelays, hend⟩ := exists_relays hb hready hfails
      have hrun := b.reconstruct_transfer h status rest d ha
      rw [hresult] at hrun
      refine ⟨hregistries, x, h', last, h'', z, rfl, ?_, hrelays,
        hrelays.depth_eq hready hend (hrun.careful.founded ha hfounded)⟩
      rw [hops_of_reconstruct hfailure hresult]
      exact hhops
  · obtain ⟨after, raised, hresult, hpreserved, rfl⟩ := reconstruct_preserved hb .raw hfailure hkey
      hcarries ha
    exact ⟨after, hresult, hpreserved⟩

end Bridge

namespace Script.Session

/-! ## §7 After a script -/

/-- After a script, a status that the script holds goes through any row of hops as a chain: success
comes back, a status that cannot be raised is reported as such by the first hop, and from everything
else there grows a chain that has all of the hops in order.  Whatever exception a registered handler
answers with, be it new, taken out of the payload, one of its links or kept since long ago, the
chain stands on it. -/
theorem chained_after (identities : List UInt64) (bridges : List Bridge) (commands : List Command)
    {b : Bridge} {status : Status} {steps : List Bridge.Hop} (built : b.Built)
    (registry : b.registry < identities.length)
    (held : (status.shares : Multiset Share) ≤ ((start identities bridges).after commands).shares)
    (room : (((start identities bridges).after commands).holdings.registry
      b.registry).slots.size < 2 ^ 64)
    (nonempty : steps ≠ []) (fails : ∀ step ∈ steps, step.Fails) :
    b.Chained ((start identities bridges).after commands).holdings status steps := by
  have hstart := start_consistent identities bridges
  have hrun := after_careful hstart commands
  have hsize : ((start identities bridges).after commands).holdings.registries.size
      = identities.length := by
    refine hrun.run.size_eq.trans ?_
    show (identities.map Registry.new).toArray.size = _
    simp
  obtain ⟨rest, hrest⟩ := Multiset.le_iff_exists_add.mp held
  have ha := hrun.consistent hstart
  rw [account, hrest] at ha
  exact Bridge.chained_of_consistent built (hsize.symm ▸ registry) room
    (hrun.founded hstart founded_empty) ha nonempty fails

/-- A handler that takes the exception out of the payload and raises its cause, or the exception
itself for lack of a cause. -/
def unwrapping : Handler where
  plan notice _ :=
    .resolve notice.registry
      (fun after e => .ok (.given (((after.content? e).bind Node.cause).bind after.live?)))
      (fun _ fault => .error fault)

/-- A bridge that raises what is in the slot `inner` in this way. -/
def unwrapper : Bridge :=
  (Bridge.new 0 {}).registerAll [("inner", unwrapping)]

/-- An exception with a cause is captured, and its payload is moved to another slot. -/
def capturing : List Command :=
  [.exception (.new "e" .lookup "gone"),
    .exception (.new "outer" .type "wrapped"),
    .exception (.extend "outer" "outer" { cause := some "e" } true),
    .bridge (.capture 0 "outer" "s"),
    .status (.take "s" ExceptionSlot.raw.key "p"),
    .status (.setPayload "s" "inner" "p"),
    .payload (.drop "p")]

/-- The status that this makes. -/
def captured : Status :=
  { code := Kind.type.code, message := "wrapped",
    slots := ⟨[("inner", .naming ⟨7, 0, 1⟩ ⟨0⟩)]⟩ }

/-- The failure is wrapped twice, and chained in between. -/
def relaying : List Bridge.Hop :=
  [.wrap .aborted "first", .chain .type " second ", .wrap .internal "third"]

/-- The handler answers with the cause, which arrives beneath all three hops. -/
theorem chained_after_relaying :
    unwrapper.Built ∧ 0 < [(7 : UInt64)].length ∧
      (captured.shares : Multiset Share) ≤ ((start [7] [unwrapper]).after capturing).shares ∧
      (((start [7] [unwrapper]).after capturing).holdings.registry 0).slots.size < 2 ^ 64 ∧
      relaying ≠ [] ∧ (∀ step ∈ relaying, step.Fails) ∧
      ∃ h' last h'' z,
        unwrapper.hops ((start [7] [unwrapper]).after capturing).holdings captured relaying
            = (h', .ok last) ∧
          last.isOk = false ∧ unwrapper.reconstruct h' last = (h'', .ok (some z)) ∧
          Bridge.Stacked unwrapper h''.exceptions ⟨0⟩ relaying z ∧
          depth h''.exceptions z = 4 := by
  have built : unwrapper.Built := (Bridge.Built.new 0 {}).registerAll _
  have hfind : ((start [7] [unwrapper]).after capturing).statuses.find? "s" = some captured := by
    decide +kernel
  have held := status_shares_le hfind
  have room : (((start [7] [unwrapper]).after capturing).holdings.registry 0).slots.size
      < 2 ^ 64 := by decide +kernel
  have fails : ∀ step ∈ relaying, step.Fails := by
    simp [relaying, Bridge.Hop.Fails, Code.isOk]
  have hchained := chained_after [7] [unwrapper] capturing built (by decide) held room (by decide)
    fails
  obtain ⟨_, x, h', last, h'', z, hfound, hhops, hrelays, hdepth⟩ := hchained.raised rfl
    (unwrapper.reconstruct ((start [7] [unwrapper]).after capturing).holdings captured).1
    (some ⟨0⟩) (Prod.ext rfl (by decide +kernel))
  cases hfound
  have hone : depth (unwrapper.reconstruct
      ((start [7] [unwrapper]).after capturing).holdings captured).1.exceptions ⟨0⟩ = 1 := by
    decide +kernel
  rw [hone] at hdepth
  exact ⟨built, by decide, held, room, by decide, fails, h', last, h'', z, hhops, hrelays.fails,
    hrelays.reconstruct_eq, hrelays.stacked, hdepth⟩

end Script.Session

end Ferry
