import Ferry.Proofs.Bridge.Carrying
import Ferry.Proofs.Ownership.Tenure

/-!
# Lossless transit

An exception that a script sends in a status arrives.  Between sending and raising, the script may
do whatever it likes with the exception, with copies of the status and with everything else: as long
as a status with the slot is left and nobody gives the entry up by its handle, every bridge over the
registry raises what was sent.

Main statement: `transit`, that a status that was sent delivers in every later state.

## Sections

1. Ways of sending.
2. What is delivered.
3. After a script.
-/

namespace Ferry.Script

open Account Holdings

/-! ## §1 Ways of sending -/

/-- The ways of sending an exception. -/
inductive Carriage where
  /-- As it is, with the code of its kind and its message. -/
  | capture
  /-- As it is, with a code and message. -/
  | raw (code : Code) (message : String)
  /-- As the cause of an exception that is made from a code and message. -/
  | cause (code : Code) (message : String)

namespace Carriage

/-- The slot that the exception travels in. -/
def slot : Carriage → ExceptionSlot
  | capture => .raw
  | raw _ _ => .raw
  | cause _ _ => .cause

/-- The code that an exception is sent with. -/
def code (node : Node) : Carriage → Code
  | capture => node.kind.code
  | raw code _ => code
  | cause code _ => code

/-- The message that an exception is sent with. -/
def message (node : Node) : Carriage → String
  | capture => node.message
  | raw _ message => message
  | cause _ message => message

/-- The code that was chosen is one of a failure. -/
def Fails : Carriage → Prop
  | capture => True
  | raw code _ => code.isOk = false
  | cause code _ => code.isOk = false

/-- The command that sends the exception of a variable and binds the status. -/
def command (place : Nat) (name target : String) : Carriage → Command
  | capture => .bridge (.capture place name target)
  | raw code message => .bridge (.carryRaw place code message (some name) target)
  | cause code message => .bridge (.carryCause place code message (some name) target)

variable {carriage : Carriage} {s : Session} {b : Bridge} {e : ExceptionRef} {node : Node}
  {place : Nat} {name : String}

theorem code_isOk (hfails : carriage.Fails) (node : Node) : (carriage.code node).isOk = false := by
  cases carriage with
  | capture => exact node.kind.isOk_code
  | raw code message => exact hfails
  | cause code message => exact hfails

/-- Each of the commands carries the exception in its slot. -/
theorem run_command (carriage : Carriage) (hbridge : s.bridge? place = some b)
    (hfind : s.exceptions.find? name = some e)
    (hnode : s.holdings.exceptions.content? e = some node) (target : String) :
    ((carriage.command place name target).run s).1
      = (s.showAndBind target (b.carry (s.holdings.retainException e) (carriage.code node)
          (carriage.message node) carriage.slot (some e))).1 := by
  cases carriage with
  | capture =>
    simp only [command, Command.run, BridgeCommand.run, Session.onBridge, Session.onException,
      Session.given, hbridge, hfind, Bridge.capture, hnode]
    rfl
  | raw _ _ | cause _ _ =>
    simp only [command, Command.run, BridgeCommand.run, Session.onBridge,
      Session.onOptionalException, Session.givenOptional, Session.given, hbridge, hfind]
    rfl

end Carriage

/-! ## §2 What is delivered -/

namespace Session

variable {s : Session} {d : Dealings} {before : ExceptionGraph} {r : Nat}
  {slot : ExceptionSlot} {code : Code} {e : ExceptionRef} {handle : Handle} {o : OwnerRef}

/-- An exception that was sent can be had as it was. -/
structure Delivers (s : Session) (before : ExceptionGraph) (r : Nat) (slot : ExceptionSlot)
    (code : Code) (e : ExceptionRef) (handle : Handle) (o : OwnerRef) : Prop where
  /-- The entry is live as long as there is a copy of the payload. -/
  live : ∀ payload, s.PayloadExists payload → payload.owner = some o →
    s.holdings.bound r handle = some (.exception e)
  /-- The entry is gone with the last copy. -/
  gone : (∀ payload, s.PayloadExists payload → payload.owner ≠ some o) →
    s.holdings.bound r handle = none
  /-- A status with the slot is raised by every bridge over the registry, whatever its message.  The
  exception is as it was before it was sent, with all that it leads to. -/
  arrives : ∀ name status, s.statuses.find? name = some status → status.code = code →
    status.slots = ⟨[(slot.key, .naming handle o)]⟩ →
    ∀ b : Bridge, b.Built → b.registry = r →
      ∃ after raised, b.reconstruct s.holdings status = (after, .ok (some raised)) ∧
        before.Preserved after.exceptions e ∧
        slot.Raises s.holdings.exceptions after.exceptions (Kind.ofCode code)
          (b.messageFor status (Kind.ofCode code)) e raised

/-- A status that carries an exception raises it in a consistent session. -/
theorem raises_of_carries (hs : (s.account d).Consistent)
    (hcarries : s.holdings.Carries r (.naming handle o) handle o e)
    (hpreserved : before.Preserved s.holdings.exceptions e) (hfails : code.isOk = false)
    {name : String} {status : Status} (hfind : s.statuses.find? name = some status)
    (hcode : status.code = code) (hslots : status.slots = ⟨[(slot.key, .naming handle o)]⟩)
    {b : Bridge} (hb : b.Built) (hr : b.registry = r) :
    ∃ after raised, b.reconstruct s.holdings status = (after, .ok (some raised)) ∧
      before.Preserved after.exceptions e ∧
      slot.Raises s.holdings.exceptions after.exceptions (Kind.ofCode code)
        (b.messageFor status (Kind.ofCode code)) e raised := by
  subst hcode hr
  obtain ⟨rest, hrest⟩ := Multiset.le_iff_exists_add.mp (status_shares_le hfind)
  have ha : Consistent ⟨s.holdings, (status.shares : Multiset Share) + rest, d⟩ := hrest ▸ hs
  obtain ⟨after, raised, hresult, hlater, hraises⟩ := Bridge.reconstruct_preserved hb slot hfails
    hslots hcarries ha
  exact ⟨after, raised, hresult, hpreserved.trans hlater, hraises⟩

theorem Delivers.of_run {a : Account} (hrun : CarefulRun a (s.account d)) (ha : a.Consistent)
    (hexclusive : a.Exclusive)
    (hcarries : a.holdings.Carries r (.naming handle o) handle o e)
    (hpreserved : before.Preserved a.holdings.exceptions e) (hfails : code.isOk = false)
    (hrange : s.holdings.InRange) (hlive : (r, handle) ∉ d.withdrawals) :
    s.Delivers before r slot code e handle o := by
  have hs := hrun.consistent ha
  have hexclusive' := hrun.run.exclusive ha hexclusive hrange
  -- As long as the owner is kept, the payload carries the exception, which stays as it was.
  have htenure : ∀ duty, s.holdings.owners.content? o = some duty →
      s.holdings.Carries r (.naming handle o) handle o e ∧
        before.Preserved s.holdings.exceptions e := by
    intro duty hduty
    obtain ⟨howns, hborrow, hlater⟩ := hrun.tenure ha hexclusive hcarries.owns hcarries.borrow_eq
      hrange hduty hlive
    exact ⟨⟨Token.parse_encode handle, rfl, howns, hborrow⟩, hpreserved.trans hlater⟩
  refine
    { live := fun payload hexists howner => ?_
      gone := fun hnone => ?_
      arrives := fun name status hfind hcode hslots b hb hr => ?_ }
  · obtain ⟨duty, hduty⟩ := owner_of_payload hs hexists howner
    exact bound_eq_some_iff.mpr (htenure duty hduty).1.borrow_eq
  · rcases hrun.run.owns_or_released ha hexclusive hrange hcarries.owns with howns | hreleased
    · obtain ⟨payload, hexists, howner⟩ := exists_payload_of_owner hs hrange howns
      exact absurd howner (hnone payload hexists)
    · exact bound_of_released (Run.refl _) hs hexclusive'.faithful hreleased
  · have hmem : Share.owner o ∈ s.shares := by
      refine Multiset.mem_of_le (status_shares_le hfind) (mem_status_shares.mpr ?_)
      exact ⟨.naming handle o, by simp [Status.payloads, KeyedList.values, hslots], rfl⟩
    obtain ⟨duty, hduty⟩ := Pool.exists_content_of_holders_pos (hs.holders_pos hmem)
    obtain ⟨hcarries', hpreserved'⟩ := htenure duty hduty
    exact raises_of_carries hs hcarries' hpreserved' hfails hfind hcode hslots hb hr

/-! ## §3 After a script -/

/-- Sending an exception of a session and binding the status, step by step. -/
theorem send_run (hs : (s.account d).Consistent) {b : Bridge}
    (hr : b.registry < s.holdings.registries.size) {name : String}
    (hfind : s.exceptions.find? name = some e) (code : Code) (message : String)
    (slot : ExceptionSlot) (target : String) :
    let made := b.carry (s.holdings.retainException e) code message slot (some e)
    let middle : Account := ⟨made.1, (made.2.shares : Multiset Share) + s.shares, d⟩
    CarefulRun (s.account d) middle ∧
      CarefulRun middle ((s.showAndBind target made).1.account d) := by
  intro made middle
  have hshare : Transfer s.holdings s.shares (s.holdings.retainException e)
      ({Share.exception e} + s.shares) := Transfer.share_of_mem (exception_mem_shares hfind)
  have hcarry : Transfer (s.holdings.retainException e) {Share.exception e} made.1
      (made.2.shares : List _) :=
    b.carry_transfer (s.holdings.retainException e) hr code message slot (some e)
  have hsend := (hshare.trans (hcarry.frame s.shares)) 0 d
  simp only [add_zero] at hsend
  have hmiddle := (hsend hs).consistent hs
  -- What the variable held before is given up.
  have hbind := bindStatus_passes (s.withHoldings made.1) target made.2 0 d
  simp only [add_zero, zero_add] at hbind
  exact ⟨(hsend hs).careful, (hbind hmiddle).careful⟩

/-- What is sent from a session is delivered in every later one. -/
theorem delivers_after (hs : (s.account d).Consistent) (hexclusive : (s.account d).Exclusive)
    {carriage : Carriage} {place : Nat} {name : String} (target : String) {b : Bridge}
    (hbridge : s.bridge? place = some b) (hfind : s.exceptions.find? name = some e)
    (hfails : carriage.Fails) (between : List Command)
    (hrange : (s.after (carriage.command place name target :: between)).holdings.InRange) :
    ∃ sent handle o node,
      (s.after [carriage.command place name target]).statuses.find? target = some sent ∧
        sent.slots = ⟨[(carriage.slot.key, .naming handle o)]⟩ ∧
        s.holdings.exceptions.content? e = some node ∧
        sent.code = carriage.code node ∧ sent.message = carriage.message node ∧
        ((b.registry, handle)
            ∉ (s.dealings d (carriage.command place name target :: between)).withdrawals →
          (s.after (carriage.command place name target :: between)).Delivers
            s.holdings.exceptions b.registry carriage.slot sent.code e handle o) := by
  obtain ⟨node, hnode⟩ := hs.exists_content_of_hand (exception_mem_shares hfind)
  have hcode := Carriage.code_isOk hfails node
  have hr : b.registry < s.holdings.registries.size := by
    simpa using (Option.filter_eq_some_iff.mp hbridge).2
  have hrun := carriage.run_command hbridge hfind hnode target
  obtain ⟨hsend, hbind⟩ := send_run hs hr hfind (carriage.code node) (carriage.message node)
    carriage.slot target
  rw [← hrun] at hbind
  have hdealings : s.dealings d (carriage.command place name target :: between)
      = ((carriage.command place name target).run s).1.dealings d between := by
    cases carriage <;> rfl
  have hmiddle := hsend.consistent hs
  -- From the moment of sending on, the rest of the script is one run.
  have hlater := hbind.trans (after_careful (hbind.consistent hmiddle) between)
  have hmrange := hlater.run.inRange hmiddle hrange
  have hmexclusive := hsend.run.exclusive hs hexclusive hmrange
  have hsent := b.carry_of_fails (s.holdings.retainException e) hcode (carriage.message node)
    carriage.slot e
  have hgraph := b.exceptions_carry (s.holdings.retainException e) hcode (carriage.message node)
    carriage.slot e
  have hsends := Bridge.carry_sends (h := s.holdings.retainException e) hr (hs.tidy _) hcode
    (carriage.message node) carriage.slot e (hmrange b.registry).slots_le
  refine ⟨_, _, _, node, ?_, hsends.slots_eq, hnode, by rw [hsent], by rw [hsent],
    fun hlive => ?_⟩
  · show ((carriage.command place name target).run s).1.statuses.find? target = _
    rw [hrun]
    exact KeyedList.find?_insert_self _ _ _
  · have hgrows := Pool.grows_retain s.holdings.exceptions e
    have hpreserved : s.holdings.exceptions.Preserved (s.holdings.retainException e).exceptions e :=
      ExceptionGraph.preserved_of_grows hgrows hs.closed (hgraph ▸ hmiddle.closed) hnode
        ((Pool.content?_retain _ _ _).trans hnode)
    rw [hdealings] at hlive
    exact Delivers.of_run hlater hmiddle hmexclusive hsends.carries (hgraph ▸ hpreserved)
      (by rwa [hsent]) hrange hlive

/-- An exception that a script sends arrives in every later state in which a status with the slot is
left, unless its entry was given up by the handle: unchanged and as itself, or as the cause and the
context of a new exception of the code and message that the status has by then. -/
theorem transit (identities : List UInt64) (bridges : List Bridge) (before : List Command)
    (carriage : Carriage) (place : Nat) (name target : String) (between : List Command) {b : Bridge}
    {e : ExceptionRef}
    (bridge : ((start identities bridges).after before).bridge? place = some b)
    (exception : ((start identities bridges).after before).exceptions.find? name = some e)
    (fails : carriage.Fails)
    (inRange : ((start identities bridges).after
      (before ++ carriage.command place name target :: between)).holdings.InRange) :
    ∃ sent handle o node,
      ((start identities bridges).after
          (before ++ [carriage.command place name target])).statuses.find? target = some sent ∧
        sent.slots = ⟨[(carriage.slot.key, .naming handle o)]⟩ ∧
        ((start identities bridges).after before).holdings.exceptions.content? e = some node ∧
        sent.code = carriage.code node ∧ sent.message = carriage.message node ∧
        ((b.registry, handle) ∉ ((start identities bridges).dealings {}
            (before ++ carriage.command place name target :: between)).withdrawals →
          ((start identities bridges).after
              (before ++ carriage.command place name target :: between)).Delivers
            ((start identities bridges).after before).holdings.exceptions b.registry carriage.slot
            sent.code e handle o) := by
  have hs := after_consistent identities bridges before
  rw [after_append] at inRange
  have hrange := (after_run hs (carriage.command place name target :: between)).inRange hs inRange
  have hexclusive := after_exclusive identities bridges before hrange
  simp only [after_append, dealings_append]
  exact delivers_after hs hexclusive target bridge exception fails between inRange

/-- An exception is raised from another. -/
def raising : List Command :=
  [.exception (.new "inner" .lookup "gone"),
    .exception (.new "e" .type "failed"),
    .exception (.extend "e" "e" { raisedFrom := some "inner" } true)]

/-- A copy of the status is raised, and the status gets another message.  A frame is added to the
exception, the variable of its cause is dropped, a handler is registered and an object stored. -/
def handling : List Command :=
  [.status (.clone "s" "copy"),
    .status (.setMessage "s" "later"),
    .exception (.extend "e" "e" { frame := some ⟨"step", "main", 1⟩ } true),
    .exception (.drop "inner"),
    .bridge (.register 0 "key" .text),
    .bridge (.reconstruct 0 "copy" none),
    .object (.new "o" (.number 1)),
    .object (.store "o" "h" 0)]

/-- The cause arrives without the frame that was added after it was sent. -/
theorem transit_handling :
    ((start [7] [.new 0 {}]).after raising).bridge? 0 = some (.new 0 {}) ∧
      ((start [7] [.new 0 {}]).after raising).exceptions.find? "e" = some ⟨1⟩ ∧
      (Carriage.cause .aborted "first").Fails ∧
      ((start [7] [.new 0 {}]).after (raising
        ++ (Carriage.cause .aborted "first").command 0 "e" "s" :: handling)).holdings.InRange ∧
      ∃ status after raised,
        ((start [7] [.new 0 {}]).after (raising
          ++ (Carriage.cause .aborted "first").command 0 "e" "s" :: handling)).statuses.find? "s"
            = some status ∧
          (Bridge.new 0 {}).reconstruct ((start [7] [.new 0 {}]).after (raising
            ++ (Carriage.cause .aborted "first").command 0 "e" "s" :: handling)).holdings status
              = (after, .ok (some raised)) ∧
          after.exceptions.content? raised
            = some (ExceptionGraph.raisedNode .value "[ABORTED] later" ⟨1⟩) ∧
          after.exceptions.content? ⟨1⟩ = some
            { kind := .type, message := "failed", cause := some ⟨0⟩, context := some ⟨0⟩ } := by
  have bridge : ((start [7] [.new 0 {}]).after raising).bridge? 0 = some (.new 0 {}) :=
    Option.filter_eq_some_iff.mpr ⟨rfl, by decide +kernel⟩
  have exception : ((start [7] [.new 0 {}]).after raising).exceptions.find? "e" = some ⟨1⟩ := by
    decide +kernel
  have inRange : ((start [7] [.new 0 {}]).after (raising
      ++ (Carriage.cause .aborted "first").command 0 "e" "s" :: handling)).holdings.InRange :=
    InRange.of_short (by decide +kernel)
  obtain ⟨sent, handle, o, _, hsent, hslots, _, hcode, _, hdelivers⟩ := transit [7]
    [.new 0 {}] raising (.cause .aborted "first") 0 "e" "s" handling bridge exception rfl inRange
  have hfind : ((start [7] [.new 0 {}]).after (raising
      ++ (Carriage.cause .aborted "first").command 0 "e" "s" :: handling)).statuses.find? "s"
        = some { sent with message := "later" } := by
    have hlater := congrArg (Option.map fun status : Status => { status with message := "later" })
      hsent
    refine Eq.trans ?_ hlater
    decide +kernel
  -- Nobody gave an entry up by its handle.
  have hlive : ((start [7] [.new 0 {}]).dealings {} (raising
      ++ (Carriage.cause .aborted "first").command 0 "e" "s" :: handling)).withdrawals = [] := by
    decide +kernel
  obtain ⟨after, raised, hresult, hpreserved, hraises⟩ := (hdelivers (by
    rw [hlive]
    exact List.not_mem_nil)).arrives "s" _ hfind rfl hslots (.new 0 {}) (.new 0 {}) rfl
  refine ⟨bridge, exception, rfl, inRange, _, after, raised, hfind, hresult, ?_,
    hpreserved.content_eq (by decide +kernel)⟩
  have haborted : sent.code = .aborted := hcode
  have hmessage : (Bridge.new 0 {}).messageFor { sent with message := "later" }
      (Kind.ofCode sent.code) = "[ABORTED] later" := by
    simp only [Bridge.messageFor, Status.messageFor, haborted]
    decide +kernel
  have hraised := hraises.2
  rw [hmessage, haborted] at hraised
  exact hraised

end Session

end Ferry.Script
