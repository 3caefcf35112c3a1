import Ferry.Bridge.Hop
import Ferry.Proofs.Ownership.Exceptions

/-!
# Shares that pass through bridges

What capturing, reconstructing and passing on do with shares, for handlers of any kind.  Capturing
keeps the caller's share of the exception and hands out those of the new status; reconstructing uses
up the status and hands out the exception.

Main statements: `Handler.run_transfer`, `Bridge.reconstruct_transfer` and `Bridge.hops_transfer`.
-/

namespace Ferry

/-! ## Handlers -/

namespace Handler

/-- Answering keeps what is in hand. -/
theorem realize_transfer {α : Type} (h : Holdings) {refs : α → ExceptionRef}
    (hrefs : ∀ a, 0 < h.exceptions.holders (refs a)) (A : Multiset Share)
    (answer : Except Fault (Draft α)) :
    Transfer h A (realize h refs answer).1
      (Holdings.foundException (realize h refs answer).2 + A) := by
  cases answer with
  | error fault => exact (Transfer.refl h A).cast rfl (zero_add A).symm
  | ok draft =>
    have hpos : ∀ e ∈ draft.names.map refs, 0 < h.exceptions.holders e := by
      intro e he
      obtain ⟨a, _, rfl⟩ := List.mem_map.mp he
      exact hrefs a
    have hretain := ExceptionGraph.retainAll_transfer (h := h) hpos A
    have hbuild := Draft.build_transfer h
      (ExceptionGraph.retainAll h.exceptions (draft.names.map refs)) refs
      (A := ((draft.names.map refs).map Share.exception : List _) + A) draft
      (fun a ha => Multiset.mem_add.mpr (Or.inl (Multiset.mem_coe.mpr
        (List.mem_map_of_mem (List.mem_map_of_mem ha)))))
    -- What was named is given up again when the exception is made.
    refine (hretain.trans (hbuild.cast rfl ?_)).dropping (Holdings.dropAll_transfer h _ _)
    show _ = ({Share.exception _} + A) + _
    abel

/-- A handler uses up the payload and hands out the exception that it builds. -/
theorem run_transfer (handler : Handler) (h : Holdings) (r : Nat) (strip : Bool)
    (payload : Payload) (status : Status) :
    Transfer h (payload.shares : List _) (handler.run h r strip payload status).1
      (Holdings.foundException (handler.run h r strip payload status).2) := by
  unfold run
  dsimp only
  cases handler.plan { registry := r, strip, bytes := payload.bytes, status } h.exceptions with
  | discard answer =>
    -- The payload stays in hand until the answer is built.
    have hmade := realize_transfer h ExceptionGraph.Live.holders_pos
      (payload.shares : List _) answer
    exact hmade.dropping (Holdings.dropPayload_transfer _ payload)
  | resolve through onTaken onFault =>
    have hunpack := Holdings.unpackException_transfer h through payload
    dsimp only
    split
    · rename_i after e hresult
      rw [hresult] at hunpack
      refine hunpack.trans (Transfer.of_consistent fun ⟨rest, d, ha⟩ => ?_)
      have hrefs : ∀ named : Option after.exceptions.Live,
          0 < after.exceptions.holders (named.elim e ExceptionGraph.Live.ref) := by
        intro named
        cases named with
        | none =>
          exact ha.holders_pos (s := .exception e)
            (Multiset.mem_add.mpr (Or.inl (Multiset.mem_singleton_self _)))
        | some live => exact live.holders_pos
      -- What was taken out stays in hand until the answer is built.
      have hmade := realize_transfer after hrefs {Share.exception e} (onTaken after.exceptions e)
      exact hmade.dropping (Holdings.dropException_transfer _ e)
    · rename_i after fault hresult
      rw [hresult] at hunpack
      have hmade := realize_transfer after ExceptionGraph.Live.holders_pos 0
        (onFault after.exceptions fault)
      exact hunpack.trans (hmade.cast rfl (add_zero _))

end Handler

namespace Bridge

/-! ## Capturing -/

/-- The shares of an optional exception. -/
abbrev optionalShares (exception : Option ExceptionRef) : Multiset Share :=
  (exception.toList.map Share.exception : List _)

/-- A status without slots holds nothing. -/
theorem shares_new (code : Code) (message : String) : (Status.new code message).shares = [] := rfl

theorem carry_transfer (b : Bridge) (h : Holdings) (hr : b.registry < h.registries.size)
    (code : Code) (message : String) (slot : ExceptionSlot) (exception : Option ExceptionRef) :
    Transfer h (optionalShares exception) (b.carry h code message slot exception).1
      ((b.carry h code message slot exception).2.shares : List _) := by
  cases exception with
  | none => exact Transfer.refl _ _
  | some e =>
    by_cases hok : code.isOk = true
    · simp only [carry, hok, if_true]
      -- Success carries no exception.
      exact Holdings.dropException_transfer h e
    · simp only [carry, hok, Bool.false_eq_true, if_false]
      have hwrite := Holdings.write_transfer h hr (Status.new code message) slot.key (.exception e)
      rw [shares_new] at hwrite
      exact hwrite.cast (zero_add _).symm rfl

/-- Capturing an exception in hand keeps its share. -/
theorem capture_transfer (b : Bridge) (h : Holdings) (hr : b.registry < h.registries.size)
    {e : ExceptionRef} {A : Multiset Share} (he : Share.exception e ∈ A) :
    Transfer h A (b.capture h e).1 (((b.capture h e).2.shares : Multiset Share) + A) := by
  unfold capture
  split
  · exact (Transfer.refl h A).cast rfl (zero_add A).symm
  · rename_i node hnode
    have hshare : Transfer h A (h.retainException e) ({Share.exception e} + A) :=
      Transfer.share_of_mem he
    -- The copy of the share goes into the slot, and the caller keeps its own.
    refine hshare.trans ?_
    exact (carry_transfer b (h.retainException e) hr node.kind.code node.message .raw
      (some e)).frame A

/-! ## Reconstructing -/

theorem newException_transfer (h : Holdings) (kind : Kind) (message : String) :
    Transfer h 0 (h.newException kind message).1
      {Share.exception (h.newException kind message).2} :=
  ExceptionGraph.create_transfer h h.exceptions kind message

/-- The share that comes with the exception of a status; success has none. -/
abbrev foundRaised : Except Fault (Option ExceptionRef) → Multiset Share :=
  Holdings.handed optionalShares

theorem settlePlain_transfer (b : Bridge) (h : Holdings) (status : Status) :
    Transfer h (status.shares : List _) (b.settlePlain h status).1
      (foundRaised (b.settlePlain h status).2) := by
  have hmade := (newException_transfer h (Kind.ofCode status.code)
    (status.plainMessage b.config.strip)).onTop (status.shares : List _)
  exact hmade.dropping (Holdings.dropStatus_transfer (b.plainException h status).1 status)

theorem handle_transfer (b : Bridge) (h : Holdings) (handler : Handler) (payload : Payload)
    (rest : Status) :
    Transfer h ((payload.shares : Multiset Share) + (rest.shares : List _))
      (b.handle h handler payload rest).1 (foundRaised (b.handle h handler payload rest).2) := by
  have hrun := (handler.run_transfer h b.registry b.config.strip payload rest).frame
    (rest.shares : List _)
  unfold handle
  split
  · rename_i after e hresult
    rw [hresult] at hrun
    exact hrun.dropping (Holdings.dropStatus_transfer after rest)
  · rename_i after fault hresult
    rw [hresult] at hrun
    have hrest := hrun.cast rfl (zero_add _)
    split
    -- The payload is used up either way; what is left is the rest of the status.
    · exact hrest.trans (Holdings.dropStatus_transfer after rest)
    · exact hrest.trans (settlePlain_transfer b after rest)

/-- Reconstructing uses up the status and hands out the exception. -/
theorem reconstruct_transfer (b : Bridge) (h : Holdings) (status : Status) :
    Transfer h (status.shares : List _) (b.reconstruct h status).1
      (foundRaised (b.reconstruct h status).2) := by
  unfold reconstruct
  split
  · exact Holdings.dropStatus_transfer h status
  · split
    · split
      · rename_i handler payload rest _ htake
        rw [Status.shares_of_take? htake]
        exact handle_transfer b h handler payload rest
      · exact settlePlain_transfer b h status
    · exact settlePlain_transfer b h status
    · exact settlePlain_transfer b h status

/-- The share that comes with what a status is raised as. -/
def raisedShares : Raised → Multiset Share
  | .exception e => {Share.exception e}
  | .nothing | .fault _ => 0

theorem raise_transfer (b : Bridge) (h : Holdings) (status : Status) :
    Transfer h (status.shares : List _) (b.raise h status).1
      (raisedShares (b.raise h status).2) := by
  have hreconstruct := reconstruct_transfer b h status
  unfold raise
  split
  · rename_i after hresult
    rwa [hresult] at hreconstruct
  · rename_i after e hresult
    rwa [hresult] at hreconstruct
  · rename_i after fault hresult
    rwa [hresult] at hreconstruct

/-! ## Passing on -/

theorem captureFrom_transfer (b : Bridge) (h : Holdings) (hr : b.registry < h.registries.size)
    (kind : Kind) (message : String) (cause : Option ExceptionRef) :
    Transfer h (optionalShares cause) (b.captureFrom h kind message cause).1
      ((b.captureFrom h kind message cause).2.shares : List _) := by
  -- The captured exception was made for the capture and goes after it.
  have hcapture : ∀ (made : Holdings) (e : ExceptionRef), b.registry < made.registries.size →
      Transfer made {Share.exception e} ((b.capture made e).1.dropException e)
        ((b.capture made e).2.shares : List _) := by
    intro made e hmade
    have hkept := capture_transfer b made hmade (Multiset.mem_singleton_self (Share.exception e))
    exact hkept.dropping (Holdings.dropException_transfer (b.capture made e).1 e)
  have hmade := newException_transfer h kind message
  cases cause with
  | none => exact hmade.trans (hcapture _ _ hr)
  | some inner =>
    -- The new exception takes over the share of the inner one.
    have hraise := ExceptionGraph.raiseFrom_transfer (h.newException kind message).1
      (h.newException kind message).1.exceptions (h.newException kind message).2 inner
    exact (hmade.onTop {Share.exception inner}).trans (hraise.trans (hcapture _ _ hr))

/-- The shares that come with a status that was passed on. -/
abbrev foundStatus : Except Fault Status → Multiset Share :=
  Holdings.handed fun status => (status.shares : List _)

theorem hop_transfer (b : Bridge) (h : Holdings) (hr : b.registry < h.registries.size)
    (inner : Status) (step : Hop) :
    Transfer h (inner.shares : List _) (b.hop h inner step).1
      (foundStatus (b.hop h inner step).2) := by
  unfold hop
  split
  · exact Transfer.refl _ _
  · have hreconstruct := reconstruct_transfer b h inner
    split
    · rename_i after fault hresult
      rwa [hresult] at hreconstruct
    · rename_i after cause hresult
      rw [hresult] at hreconstruct
      refine hreconstruct.bind fun hsize => ?_
      have hr' : b.registry < after.registries.size := hsize.symm ▸ hr
      cases step with
      | chain kind message => exact captureFrom_transfer b after hr' kind message cause
      | wrap code message => exact carry_transfer b after hr' code message .cause cause

/-- Passing a status on uses it up and hands out the last one. -/
theorem hops_transfer (b : Bridge) (h : Holdings) (hr : b.registry < h.registries.size)
    (inner : Status) (steps : List Hop) :
    Transfer h (inner.shares : List _) (b.hops h inner steps).1
      (foundStatus (b.hops h inner steps).2) := by
  induction steps generalizing h inner with
  | nil => exact Transfer.refl _ _
  | cons step rest ih =>
    have hhop := hop_transfer b h hr inner step
    unfold hops
    split
    · rename_i after fault hresult
      rwa [hresult] at hhop
    · rename_i after outer hresult
      rw [hresult] at hhop
      exact hhop.bind fun hsize => ih after (hsize.symm ▸ hr) outer

end Bridge

end Ferry
