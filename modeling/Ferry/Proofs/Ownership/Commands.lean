import Ferry.Proofs.Ownership.Sessions
import Ferry.Script.Run

/-!
# Commands as passages

Commands move shares between variables, and every share that they set free is given up.  Three
commands deal with a registry directly: one stores an object, and two give an entry up.  One makes
an owner that counts.  All others are passages from one session to the next.

Main statements: one passage for each family of commands.

## Sections

1. Statuses and payloads.
2. Exceptions and outlines.
3. Bridges.
4. Objects, entries and tokens.
-/

namespace Ferry.Script

open Session Holdings

/-! ## §1 Statuses and payloads -/

theorem StatusCommand.run_passes (s : Session) (command : StatusCommand) :
    Passes s 0 (command.run s).1 0 := by
  cases command with
  | new name code message => exact showAndBind_passes (Passes.refl _ _)
  | ok name => exact showAndBind_passes (Passes.refl _ _)
  | setMessage name message =>
    refine given_passes fun status hfind => updateStatus_passes hfind ?_
    -- The message is no slot, so nothing is traded.
    have hshares : (status.setMessage message).shares = status.shares := by
      unfold Status.setMessage
      split <;> rfl
    rw [hshares]
    exact Transfer.refl _ _
  | setBytes name key bytes =>
    exact given_passes fun status hfind => setSlot_passes hfind key (.ofBytes bytes)
  | setText name key text =>
    exact given_passes fun status hfind => setSlot_passes hfind key (.ofText text)
  | setPayload name key p =>
    refine given_passes fun payload hpayload => given_passes fun status hfind => ?_
    -- The variable keeps its payload, and the slot gets a copy.
    have hretain := retainPayload_passes (payload_shares_le hpayload)
    exact hretain.trans
      (setSlot_passes (s := s.withHoldings (s.holdings.retainPayload payload)) hfind key payload)
  | erase name key =>
    exact given_passes fun status hfind => eraseSlot_passes hfind key
  | take name key p =>
    refine given_passes fun status hfind => ?_
    dsimp only
    split
    · exact Passes.refl _ _
    · rename_i payload rest htake
      -- What is taken out passes from the status to the caller.
      have htaken : Passes s 0 (s.updateStatus name (s.holdings, rest))
          (payload.shares : List _) := by
        refine updateStatus_passes hfind ?_
        rw [Status.shares_of_take? htake]
        exact (Transfer.refl _ _).cast (zero_add _) rfl
      cases p with
      | some p => exact htaken.trans (bindPayload_passes _ p payload)
      | none => exact htaken.trans (Passes.of_transfer (dropPayload_transfer _ payload))
  | get name key p =>
    refine given_passes fun status hfind => ?_
    split
    · exact Passes.refl _ _
    · exact Passes.refl _ _
    · rename_i payload p hslot
      -- The slot keeps its payload, and the variable gets a copy.
      have hle : (payload.shares : Multiset Share) ≤ s.shares := by
        refine le_trans ?_ (status_shares_le hfind)
        rw [Status.shares_of_slot? hslot]
        exact Multiset.le_add_right _ _
      exact (retainPayload_passes hle).trans (bindPayload_passes _ p payload)
  | keys name => exact given_passes fun _ _ => Passes.refl _ _
  | display name => exact given_passes fun _ _ => Passes.refl _ _
  | debug name => exact given_passes fun _ _ => Passes.refl _ _
  | snapshot name target =>
    refine given_passes fun status _ => showAndBind_passes ?_
    rw [Status.shares_snapshot]
    exact Passes.refl _ _
  | clone name target =>
    refine given_passes fun status hfind => showAndBind_passes ?_
    exact Passes.of_transfer_shares (retainStatus_transfer _ (status_shares_le hfind))
  | drop name =>
    exact given_passes fun status hfind =>
      useStatus_passes hfind (dropStatus_transfer s.holdings status)
  | alike name other => exact given_passes fun _ _ => given_passes fun _ _ => Passes.refl _ _

/-- A payload with a counter is bound as any other, once its owner is made. -/
theorem PayloadCommand.counted_passes (s : Session) (p : String) (bytes : List UInt8)
    (counter : Nat) :
    Passes (s.withHoldings (s.holdings.newOwner (.tally counter)).1)
      {Share.owner (s.holdings.newOwner (.tally counter)).2}
      (s.showAndBindPayload p ((s.holdings.newOwner (.tally counter)).1,
        { bytes, owner := some (s.holdings.newOwner (.tally counter)).2 })).1 0 :=
  bindPayload_passes _ p { bytes, owner := some (s.holdings.newOwner (.tally counter)).2 }

theorem PayloadCommand.run_passes (s : Session) {command : PayloadCommand}
    (hquiet : ∀ p bytes counter, command ≠ .counted p bytes counter) :
    Passes s 0 (command.run s).1 0 := by
  cases command with
  | new p bytes => exact showAndBindPayload_passes (Passes.refl _ _)
  | counted p bytes counter => exact absurd rfl (hquiet p bytes counter)
  | reown p bytes owner =>
    refine given_passes fun payload hfind => showAndBindPayload_passes ?_
    exact retainPayload_passes (payload_shares_le hfind)
  | detach p target =>
    exact given_passes fun payload _ => showAndBindPayload_passes (Passes.refl _ _)
  | clone p target =>
    refine given_passes fun payload hfind => ?_
    exact (retainPayload_passes (payload_shares_le hfind)).trans
      (bindPayload_passes _ target payload)
  | display p => exact given_passes fun _ _ => Passes.refl _ _
  | alike p other => exact given_passes fun _ _ => given_passes fun _ _ => Passes.refl _ _
  | drop p =>
    exact given_passes fun payload hfind =>
      usePayload_passes hfind (dropPayload_transfer s.holdings payload)
  | tallies => exact Passes.refl _ _

/-! ## §2 Exceptions and outlines -/

namespace ExceptionCommand

section Edits

variable {h : Holdings} {A : Multiset Share} (state : ExceptionGraph × ExceptionRef)

/-- Linking an exception to another one in hand keeps the share of the other. -/
theorem link_transfer {linked : ExceptionGraph × ExceptionRef} {other : ExceptionRef}
    (hother : Share.exception other ∈ A)
    (hlink : Transfer (h.withExceptions (state.1.retain other))
      ({Share.exception state.2} + {Share.exception other}) (h.withExceptions linked.1)
      {Share.exception linked.2}) :
    Transfer (h.withExceptions state.1) ({Share.exception state.2} + A)
      (h.withExceptions linked.1) ({Share.exception linked.2} + A) := by
  have hretain : Transfer (h.withExceptions state.1) ({Share.exception state.2} + A)
      (h.withExceptions (state.1.retain other))
      ({Share.exception other} + ({Share.exception state.2} + A)) :=
    Transfer.share_of_mem (h := h.withExceptions state.1) (s := .exception other)
      (Multiset.mem_add.mpr (Or.inr hother))
  refine hretain.trans ((hlink.frame A).cast ?_ rfl)
  abel

theorem addCause_transfer {cause : Option ExceptionRef}
    (hcause : ∀ e, cause = some e → Share.exception e ∈ A) :
    Transfer (h.withExceptions state.1) ({Share.exception state.2} + A)
      (h.withExceptions (addCause state cause).1)
      ({Share.exception (addCause state cause).2} + A) := by
  cases cause with
  | none => exact Transfer.refl _ _
  | some e =>
    exact link_transfer state (hcause e rfl) (ExceptionGraph.setCause_transfer h _ state.2 e)

theorem addContext_transfer {context : Option ExceptionRef}
    (hcontext : ∀ e, context = some e → Share.exception e ∈ A) :
    Transfer (h.withExceptions state.1) ({Share.exception state.2} + A)
      (h.withExceptions (addContext state context).1)
      ({Share.exception (addContext state context).2} + A) := by
  cases context with
  | none => exact Transfer.refl _ _
  | some e =>
    exact link_transfer state (hcontext e rfl) (ExceptionGraph.setContext_transfer h _ state.2 e)

theorem addOrigin_transfer {origin : Option ExceptionRef}
    (horigin : ∀ e, origin = some e → Share.exception e ∈ A) :
    Transfer (h.withExceptions state.1) ({Share.exception state.2} + A)
      (h.withExceptions (addOrigin state origin).1)
      ({Share.exception (addOrigin state origin).2} + A) := by
  cases origin with
  | none => exact Transfer.refl _ _
  | some e =>
    exact link_transfer state (horigin e rfl) (ExceptionGraph.raiseFrom_transfer h _ state.2 e)

theorem addFrame_transfer (frame : Option Frame) :
    Transfer (h.withExceptions state.1) ({Share.exception state.2} + A)
      (h.withExceptions (addFrame state frame).1)
      ({Share.exception (addFrame state frame).2} + A) := by
  cases frame with
  | none => exact Transfer.refl _ _
  | some frame => exact (ExceptionGraph.addFrame_transfer h state.1 state.2 frame).frame A

end Edits

theorem deepenBy_transfer (h : Holdings) (kind : Kind) (message : String) (count : Nat)
    (g : ExceptionGraph) (e : ExceptionRef) :
    Transfer (h.withExceptions g) {Share.exception e}
      (h.withExceptions (deepenBy kind message count g e).1)
      {Share.exception (deepenBy kind message count g e).2} := by
  induction count generalizing g e with
  | zero => exact Transfer.refl _ _
  | succ count ih =>
    refine ((ExceptionGraph.create_transfer h g kind message).onTop {Share.exception e}).trans ?_
    exact (ExceptionGraph.raiseFrom_transfer h _ _ e).trans (ih _ _)

theorem run_passes (s : Session) (command : ExceptionCommand) :
    Passes s 0 (command.run s).1 0 := by
  cases command with
  | new e kind message =>
    have hmade : Passes s 0 (s.withHoldings (s.holdings.newException kind message).1)
        {Share.exception (s.holdings.newException kind message).2} :=
      Passes.of_transfer (Bridge.newException_transfer s.holdings kind message)
    exact hmade.trans (showAndKeep_passes _ (some e) _)
  | extend e target edits move =>
    refine given_passes fun ref hfind => ?_
    generalize hstarted : (if move then s.unbindException e
      else s.withHoldings (s.holdings.retainException ref)) = started
    -- Moving hands the share of the variable over; otherwise the builder gets one of its own.
    have hstart : Passes s 0 started {Share.exception ref} := by
      subst hstarted
      split
      · exact unbindException_passes hfind
      · exact retainException_passes hfind
    refine givenOptional_passes fun cause hcause => givenOptional_passes fun context hcontext =>
      givenOptional_passes fun origin horigin => ?_
    -- A variable that was found holds a share of its exception.
    have hmem : ∀ optional : Option ExceptionRef,
        (∀ e, optional = some e → ∃ key, started.exceptions.find? key = some e) →
        ∀ e, optional = some e → Share.exception e ∈ started.shares := by
      intro optional hoptional e he
      obtain ⟨key, hkey⟩ := hoptional e he
      exact exception_mem_shares hkey
    have hcaused := addCause_transfer (h := started.holdings) (A := started.shares)
      (started.holdings.exceptions, ref) (hmem cause hcause)
    have hcontexted := hcaused.trans (addContext_transfer _ (hmem context hcontext))
    have hlinked := hcontexted.trans (addOrigin_transfer _ (hmem origin horigin))
    have hbuilt := hlinked.trans (addFrame_transfer _ edits.frame)
    dsimp only
    generalize addFrame (addOrigin (addContext (addCause (started.holdings.exceptions, ref) cause)
      context) origin) edits.frame = built at hbuilt ⊢
    have hpassed : Passes started {Share.exception ref} (started.withGraph built.1)
      {Share.exception built.2} := hbuilt
    exact hstart.trans (hpassed.trans (showAndKeep_passes _ (some target) built.2))
  | deepen e target kind message count =>
    refine given_passes fun ref hfind => ?_
    -- The variable keeps its share; the chain is built on a second one.
    have hdeepened : Passes (s.withHoldings (s.holdings.retainException ref))
        {Share.exception ref} _ _ :=
      Passes.of_transfer (deepenBy_transfer s.holdings kind message count
        (s.holdings.exceptions.retain ref) ref)
    refine (retainException_passes hfind).trans (hdeepened.trans ?_)
    exact showAndKeep_passes (s.withGraph _) (some target) _
  | display e => exact given_passes fun _ _ => Passes.refl _ _
  | debug e => exact given_passes fun _ _ => Passes.refl _ _
  | same e other => exact given_passes fun _ _ => given_passes fun _ _ => Passes.refl _ _
  | drop e =>
    refine given_passes fun ref hfind => (unbindException_passes hfind).trans ?_
    exact Passes.of_transfer (s := s.unbindException e) (dropException_transfer s.holdings ref)

end ExceptionCommand

theorem OutlineCommand.run_passes (s : Session) (command : OutlineCommand) :
    Passes s 0 (command.run s).1 0 := by
  cases command with
  | new c => exact Passes.refl _ _
  | ofException e c => exact given_passes fun _ _ => Passes.refl _ _
  | push c kind message count => exact given_passes fun _ _ => Passes.refl _ _
  | clone c target => exact given_passes fun _ _ => Passes.refl _ _
  | display c => exact given_passes fun _ _ => Passes.refl _ _
  | same c other => exact given_passes fun _ _ => given_passes fun _ _ => Passes.refl _ _
  | build c e =>
    refine given_passes fun outline _ => ?_
    have hbuilt : Passes s 0 (s.withGraph (outline.build s.holdings.exceptions).1) _ :=
      Passes.of_transfer (Outline.build_transfer s.holdings s.holdings.exceptions outline)
    dsimp only
    split
    · rename_i hnone
      rw [hnone] at hbuilt
      exact hbuilt
    · rename_i ref hsome
      rw [hsome] at hbuilt
      exact hbuilt.trans (showAndKeep_passes _ e ref)

/-! ## §3 Bridges -/

namespace BridgeCommand

theorem retainOptional_passes {s : Session} {optional : Option ExceptionRef}
    (hfound : ∀ e, optional = some e → ∃ key, s.exceptions.find? key = some e) :
    Passes s 0 (s.withHoldings (retainOptional s.holdings optional))
      (Bridge.optionalShares optional) := by
  cases optional with
  | none => exact Passes.refl _ _
  | some e =>
    obtain ⟨key, hkey⟩ := hfound e rfl
    exact retainException_passes hkey

theorem size_retainOptional (h : Holdings) (optional : Option ExceptionRef) :
    (retainOptional h optional).registries.size = h.registries.size := by
  cases optional <;> rfl

theorem showRaised_passes (s : Session) (e : Option String) (raised : Bridge.Raised) :
    Passes s (Bridge.raisedShares raised) (showRaised s e raised).1 0 := by
  cases raised with
  | nothing => exact Passes.refl _ _
  | fault fault => exact Passes.refl _ _
  | exception ref => exact keepException_passes s e ref

theorem showBuilt_passes (s : Session) (e : Option String) (result : Except Fault ExceptionRef) :
    Passes s (foundException result) (showBuilt s e result).1 0 := by
  cases result with
  | error fault => exact Passes.refl _ _
  | ok ref => exact showAndKeep_passes s e ref

theorem run_passes (s : Session) (command : BridgeCommand) :
    Passes s 0 (command.run s).1 0 := by
  cases command with
  | capture b e target =>
    refine onBridge_passes fun bridge hr => given_passes fun ref hfind => showAndBind_passes ?_
    exact Passes.of_transfer_shares (bridge.capture_transfer s.holdings hr
      (exception_mem_shares hfind))
  | carryRaw b code message e target =>
    refine onBridge_passes fun bridge hr => givenOptional_passes fun optional hfound => ?_
    refine showAndBind_passes ((retainOptional_passes hfound).trans ?_)
    exact Passes.of_transfer (s := s.withHoldings _)
      (bridge.carry_transfer _ ((size_retainOptional _ _).symm ▸ hr) code message .raw optional)
  | carryCause b code message e target =>
    refine onBridge_passes fun bridge hr => givenOptional_passes fun optional hfound => ?_
    refine showAndBind_passes ((retainOptional_passes hfound).trans ?_)
    exact Passes.of_transfer (s := s.withHoldings _)
      (bridge.carry_transfer _ ((size_retainOptional _ _).symm ▸ hr) code message .cause optional)
  | classify b name =>
    exact onBridge_passes fun _ _ => given_passes fun _ _ => Passes.refl _ _
  | reconstruct b name e =>
    refine onBridge_passes fun bridge hr => given_passes fun status hfind => ?_
    have hrebuilt := useStatus_passes hfind (bridge.reconstruct_transfer s.holdings status)
    refine hrebuilt.trans ?_
    dsimp only
    rcases (bridge.reconstruct s.holdings status).2 with fault | none | ref
    · exact Passes.refl _ _
    · exact Passes.refl _ _
    · exact showAndKeep_passes _ e ref
  | raise b name e =>
    refine onBridge_passes fun bridge hr => given_passes fun status hfind => ?_
    have hraised := useStatus_passes hfind (bridge.raise_transfer s.holdings status)
    exact hraised.trans (showRaised_passes _ e _)
  | plain b name e =>
    refine onBridge_passes fun bridge hr => given_passes fun status hfind => ?_
    -- The plain exception is made from the texts, and the status stays where it is.
    have hmade : Passes s 0 (s.withHoldings (bridge.plainException s.holdings status).1) _ :=
      Passes.of_transfer (Bridge.newException_transfer s.holdings (Kind.ofCode status.code)
        (status.plainMessage bridge.config.strip))
    exact hmade.trans (showAndKeep_passes _ e _)
  | format b name kind =>
    exact onBridge_passes fun _ _ => given_passes fun _ _ => Passes.refl _ _
  | unpack b p e =>
    refine onBridge_passes fun bridge hr => given_passes fun payload hfind => ?_
    have htaken := usePayload_passes hfind
      (unpackException_transfer s.holdings bridge.registry payload)
    exact htaken.trans (showBuilt_passes _ e _)
  | hop b name target step count =>
    refine onBridge_passes fun bridge hr => given_passes fun status hfind => ?_
    have hpassed := useStatus_passes hfind
      (bridge.hops_transfer s.holdings hr status (List.replicate count step))
    dsimp only
    split
    · rename_i fault hresult
      rw [hresult] at hpassed
      exact hpassed
    · rename_i outer hresult
      rw [hresult] at hpassed
      exact hpassed.trans (bindStatus_passes _ target outer)
  | config b => exact onBridge_passes fun _ _ => Passes.refl _ _
  | register b key handler =>
    refine onBridge_passes fun bridge hr => ?_
    split <;> exact Passes.refl _ _
  | handlers b key => exact onBridge_passes fun _ _ => Passes.refl _ _
  | registerIn t key handler =>
    simp only [run]
    split <;> exact Passes.refl _ _
  | runIn t key b p name e =>
    refine onBridge_passes fun bridge hr => ?_
    split
    · exact Passes.refl _ _
    · rename_i handler hhandler
      refine given_passes fun payload hfind => given_passes fun status _ => ?_
      have hbuilt := usePayload_passes hfind
        (handler.run_transfer s.holdings bridge.registry bridge.config.strip payload status)
      exact hbuilt.trans (showBuilt_passes _ e _)

end BridgeCommand

/-! ## §4 Objects, entries and tokens -/

namespace ObjectCommand

/-- Whether a command stores or gives up an entry by an operation of its registry. -/
def isDirect : ObjectCommand → Bool
  | store _ _ _ | fetch _ _ _ | release _ _ => true
  | _ => false

/-- Making an item uses up the shares that it holds. -/
theorem make_passes (s : Session) (o : String) (item : Item) :
    Passes s (item.shares : List _) (make s o item).1 0 :=
  (Passes.of_transfer (Transfer.newItem s.holdings item)).trans (bindObject_passes _ o _)

theorem retainItem_passes {s : Session} {o : String} {ref : ItemRef}
    (hheld : s.heldItem? o = some ref) :
    Passes s 0 (s.withHoldings (s.holdings.retainObject (.item ref))) {Share.item ref} :=
  Passes.of_transfer_shares (Transfer.share_of_mem (item_mem_shares hheld))

/-- A command that does not deal with its registry directly is a passage. -/
theorem perform_passes (s : Session) (command : ObjectCommand)
    (hr : ∀ r, command.registry? = some r → r < s.holdings.registries.size)
    (hdirect : command.isDirect = false) : Passes s 0 (perform s command).1 0 := by
  cases command with
  | store | fetch | release => cases hdirect
  | new o source =>
    cases source with
    | number value => exact make_passes s o (.number value)
    | text value => exact make_passes s o (.text value)
    | bytes value => exact make_passes s o (.bytes value)
    | status name =>
      -- The shares of the status move from the variable into the item.
      refine given_passes fun status hfind => (unbindStatus_passes hfind).trans ?_
      exact make_passes (s.unbindStatus name) o (.status status)
  | drop o => exact given_passes fun kept hfind => letGoObject_passes hfind
  | counts => exact Passes.refl _ _
  | bindHandle h value => exact Passes.refl _ _
  | sameHandle h other => exact given_passes fun _ _ => given_passes fun _ _ => Passes.refl _ _
  | borrow h r type =>
    refine given_passes fun handle _ => ?_
    cases type with
    | none =>
      exact (Passes.of_transfer (borrow_transfer s.holdings r handle)).trans
        (showObject_passes _ _)
    | some type =>
      exact (Passes.of_transfer (borrowAs_transfer s.holdings r type handle)).trans
        (showObject_passes _ _)
  | validate h r =>
    refine given_passes fun handle _ => ?_
    split <;> exact Passes.refl _ _
  | contains h r => exact given_passes fun _ _ => Passes.refl _ _
  | encode h => exact given_passes fun _ _ => Passes.refl _ _
  | decode bytes r h =>
    simp only [perform]
    split
    · exact Passes.refl _ _
    · cases h <;> exact Passes.refl _ _
  | mint o p r =>
    refine given_passes fun ref hheld => showAndBindPayload_passes ?_
    -- The variable keeps its item, and the entry gets a share of its own.
    refine (retainItem_passes hheld).trans ?_
    exact Passes.of_transfer (s := s.withHoldings _)
      (Transfer.mint (h := s.holdings.retainObject (.item ref)) (hr r rfl) (.item ref))
  | consume p r =>
    refine given_passes fun payload hfind => ?_
    have hconsumed := usePayload_passes hfind (consume_transfer s.holdings r payload)
    exact hconsumed.trans (showObject_passes _ _)
  | write name key r o =>
    cases o with
    | none =>
      exact given_passes fun status hfind => eraseSlot_passes hfind key
    | some o =>
      refine given_passes fun status hfind => given_passes fun ref hheld => ?_
      refine (retainItem_passes hheld).trans (updateStatus_passes
        (s := s.withHoldings (s.holdings.retainObject (.item ref))) hfind ?_)
      exact (write_transfer (s.holdings.retainObject (.item ref)) (hr r rfl) status key
        (.item ref)).cast (add_comm _ _) (zero_add _).symm
  | read name key r type =>
    refine given_passes fun status _ => ?_
    exact (Passes.of_transfer (read_transfer s.holdings r status key type)).trans
      (showOptionalObject_passes _ _)
  | takeOut name key r type =>
    refine given_passes fun status hfind => ?_
    have htaken := takeOut_transfer s.holdings r status key type
    refine Passes.trans (updateStatus_passes hfind ?_) (showOptionalObject_passes _ _)
    exact htaken.cast (zero_add _) (add_comm _ _)
  | throughToken o r =>
    refine given_passes fun ref hheld => (retainItem_passes hheld).trans ?_
    exact (Passes.of_transfer (s := s.withHoldings (s.holdings.retainObject (.item ref)))
      (throughToken_transfer (s.holdings.retainObject (.item ref)) (hr r rfl) (.item ref))).trans
        (showObject_passes _ _)

end ObjectCommand

end Ferry.Script
