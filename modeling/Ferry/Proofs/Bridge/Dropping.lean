import Ferry.Bridge.Reconstruct
import Ferry.Proofs.Ownership.Exact

/-!
# Reconstructing gives up what dropping gives up

A failed status is raised in many ways: its payload is dropped, or consumed by its last holder, or
borrowed from and dropped; the object that comes out is an exception, or is of another type and is
dropped in turn; and the exception that is raised may be another one.  In all of them the registries
are left as if the status had been dropped.

The reason is one equation: consuming a payload and then dropping what came out of it is dropping
the payload (`dropYield_consume`).  What else happens touches exceptions only, so it is forgotten
together with them (`bare`).

Main statements: `dropYield_consume`, `bare_reconstruct`, and `reconstruct_drops`, what this comes
to after a script.

## Sections

1. A share that is given back.
2. Consuming and dropping.
3. Apart from the exceptions.
4. Handlers.
5. Reconstructing.
6. After a script.
-/

namespace Ferry

/-! ## §1 A share that is given back -/

/-- Changing a cell without effect on what it holds changes nothing. -/
theorem Pool.modifyCell_eq_self {role : Role} {α : Type} {pool : Pool role α} {ref : Ref role}
    {f : Cell α → Cell α} (hsame : ∀ cell, pool.cell? ref = some cell → f cell = cell) :
    pool.modifyCell ref f = pool := by
  refine congrArg Pool.mk (Array.ext_getElem? fun place => ?_)
  rw [Array.getElem?_modify]
  split
  · next hplace =>
    subst hplace
    cases hcell : pool.cells[ref.index]? with
    | none => rfl
    | some found =>
      cases found with
      | none => rfl
      | some cell => simp [hsame cell (by simp [cell?, hcell])]
  · rfl

theorem Pool.modifyCell_modifyCell {role : Role} {α : Type} (pool : Pool role α) (ref : Ref role)
    (f g : Cell α → Cell α) :
    (pool.modifyCell ref f).modifyCell ref g = pool.modifyCell ref (g ∘ f) := by
  refine congrArg Pool.mk (Array.ext_getElem? fun place => ?_)
  simp only [modifyCell, Array.getElem?_modify]
  split <;> simp [Function.comp_def]

/-- A holder that comes and goes leaves everything as it was. -/
theorem Pool.release_retain {role : Role} {α : Type} {pool : Pool role α} (hpool : pool.Attended)
    (ref : Ref role) : (pool.retain ref).release ref = (pool, none) := by
  cases hplace : pool.cell? ref with
  | none =>
    have hsame : pool.retain ref = pool := modifyCell_eq_self (by simp [hplace])
    rw [hsame]
    simp only [release, hplace]
  | some cell =>
    have hcell := cell?_retain pool ref ref
    rw [if_pos rfl, hplace, Option.map_some] at hcell
    -- The cell had a holder before, so the one that comes is not the last.
    have hpos := hpool ref cell.content (by simp [content?, hplace])
    rw [holders_of_cell? hplace] at hpos
    have hmore : ¬cell.holders + 1 ≤ 1 := by omega
    have hsame : (pool.retain ref).modifyCell ref
        (fun cell => { cell with holders := cell.holders - 1 }) = pool := by
      rw [retain, modifyCell_modifyCell]
      exact modifyCell_eq_self fun _ _ => rfl
    simp only [release, hcell, if_neg hmore, hsame]

/-- So it is with a share of an exception. -/
theorem ExceptionGraph.drop_retain {g : ExceptionGraph} (hattended : g.Attended)
    (e : ExceptionRef) : drop (g.retain e) e = g := by
  simp only [drop, dropAll_cons, Pool.release_retain hattended, departing, List.nil_append,
    dropAll_nil]

namespace Holdings

theorem dropObject_retainObject {h : Holdings} (hitems : h.items.Attended)
    (hexceptions : h.exceptions.Attended) (object : Object) :
    (h.retainObject object).dropObject object = h := by
  cases object with
  | item ref =>
    simp only [retainObject, dropObject, releaseAll_cons, settle, Pool.release_retain hitems,
      departing, List.nil_append, releaseAll_nil]
  | exception e =>
    simp only [retainObject, retainException, dropObject, releaseAll_cons, settle,
      ExceptionGraph.drop_retain hexceptions, List.nil_append, releaseAll_nil]

/-! ## §2 Consuming and dropping -/

/-- Gives up the object that a call yielded, if it did not fail. -/
def dropYield (h : Holdings) : Except Fault Object → Holdings
  | .ok object => h.dropObject object
  | .error _ => h

/-- Taking an entry over from its last owner and dropping the object is dropping the owner. -/
theorem dropYield_redeem {h : Holdings} {o : OwnerRef} {r : Nat} {handle : Handle}
    (howns : h.owners.content? o = some (.entry r handle)) (hlast : h.owners.holders o ≤ 1) :
    (h.redeem o).1.dropYield (h.redeem o).2 = h.releaseAll [.owner o] := by
  have hgone := Pool.release_snd_of_last howns hlast
  simp only [redeem, hgone, releaseAll_cons, settle, discharge, fetch]
  cases (registry { h with owners := (h.owners.release o).1 } r).fetch handle with
  | error fault => simp [handOver, dropYield]
  | ok found => simp [handOver, dropYield, dropObject]

/-- Borrowing an object beside other owners and dropping it is dropping the owner. -/
theorem dropYield_borrow {h : Holdings} (hitems : h.items.Attended)
    (hexceptions : h.exceptions.Attended) {o : OwnerRef} (hmore : 1 < h.owners.holders o) (r : Nat)
    (handle : Handle) :
    ((h.borrow r handle).1.releaseAll [.owner o]).dropYield (h.borrow r handle).2
      = h.releaseAll [.owner o] := by
  have hstays := Pool.release_snd_of_one_lt hmore
  unfold borrow
  cases (h.registry r).borrow handle with
  | error fault => rfl
  | ok object =>
    -- The owner's count and the object's count are kept apart.
    have howners : (h.retainObject object).owners = h.owners := by cases object <;> rfl
    have hswap : ({ h.retainObject object with owners := (h.owners.release o).1 } : Holdings)
        = ({ h with owners := (h.owners.release o).1 } : Holdings).retainObject object := by
      cases object <;> rfl
    have hback : (({ h with owners := (h.owners.release o).1 } : Holdings).retainObject
        object).dropObject object = { h with owners := (h.owners.release o).1 } :=
      dropObject_retainObject (h := { h with owners := (h.owners.release o).1 }) hitems hexceptions
        object
    simp only [lend, dropYield, releaseAll_cons, settle, howners, hstays, discharge,
      List.nil_append, releaseAll_nil, hswap, hback]

/-- Consuming a payload and dropping what comes out of it is dropping the payload. -/
theorem dropYield_consume {h : Holdings} (hitems : h.items.Attended)
    (hexceptions : h.exceptions.Attended) (r : Nat) (payload : Payload) :
    (h.consume r payload).1.dropYield (h.consume r payload).2 = h.dropPayload payload := by
  unfold consume
  cases hresolve : h.resolve r payload with
  | error fault => rfl
  | ok found =>
    obtain ⟨handle, o⟩ := found
    obtain ⟨_, howner, hentry⟩ := (resolve_eq_ok_iff h r payload handle o).mp hresolve
    have hshares : payload.shares = [.owner o] := by
      rw [Payload.shares, howner]
      rfl
    have hdrop : ∀ h' : Holdings, h'.dropPayload payload = h'.releaseAll [.owner o] := by
      intro h'
      rw [dropPayload, hshares]
    simp only [hdrop]
    split
    · next hlast =>
      -- An owner with an entry owes it to some registry.
      obtain ⟨duty, howns, hhandle⟩ := Option.bind_eq_some_iff.mp hentry
      cases duty with
      | tally counter => cases hhandle
      | entry home other => exact dropYield_redeem howns hlast
    · next hmore => exact dropYield_borrow hitems hexceptions (Nat.lt_of_not_le hmore) r handle

/-! ## §3 Apart from the exceptions -/

/-- The holdings without their exceptions. -/
def bare (h : Holdings) : Holdings :=
  { h with exceptions := {} }

/-- Exceptions hold nothing but exceptions, so giving up does not depend on them. -/
theorem settle_bare (h : Holdings) (share : Share) :
    h.bare.settle share = ((h.settle share).1.bare, (h.settle share).2) := by
  cases share using Share.cases with
  | owner ref =>
    simp only [settle, bare]
    cases (h.owners.release ref).2 with
    | none => rfl
    | some duty =>
      cases duty with
      | tally counter => rfl
      | entry r handle =>
        simp only [discharge, registry]
        cases (h.registries.getD r (Registry.new 0)).fetch handle <;> rfl
  | item ref => rfl
  | exception e =>
    have hempty : ExceptionGraph.drop {} e = {} := by
      rw [ExceptionGraph.drop, ExceptionGraph.dropAll_cons]
      simp [Pool.release, Pool.cell?, ExceptionGraph.departing]
    simp only [settle, bare, hempty]

theorem bare_releaseAll (h : Holdings) (pending : List Share) :
    (h.releaseAll pending).bare = h.bare.releaseAll pending := by
  induction h, pending using releaseAll.induct with
  | case1 h => simp
  | case2 h share rest settled ih =>
    rw [releaseAll_cons, releaseAll_cons, settle_bare]
    exact ih

theorem bare_dropException (h : Holdings) (e : ExceptionRef) :
    (h.dropException e).bare = h.bare := by
  rw [dropException, releaseAll_cons, settle, List.nil_append, releaseAll_nil]
  rfl

/-- Taking an exception out of a payload leaves what dropping the payload leaves. -/
theorem bare_unpackException {h : Holdings} (hitems : h.items.Attended)
    (hexceptions : h.exceptions.Attended) (r : Nat) (payload : Payload) :
    (h.unpackException r payload).1.bare = (h.dropPayload payload).bare := by
  rw [← dropYield_consume hitems hexceptions r payload]
  unfold unpackException
  obtain ⟨after, result⟩ := h.consume r payload
  cases result with
  | error fault => rfl
  | ok object =>
    cases object with
    | item ref => rfl
    | exception e => exact (bare_dropException after e).symm

end Holdings

/-! ## §4 Handlers -/

theorem Handler.bare_realize {α : Type} (h : Holdings) (refs : α → ExceptionRef)
    (answer : Except Fault (Draft α)) : (realize h refs answer).1.bare = h.bare := by
  cases answer <;> rfl

/-- Whatever a handler answers, its payload ends as if it were dropped. -/
theorem Handler.bare_run {h : Holdings} (hitems : h.items.Attended)
    (hexceptions : h.exceptions.Attended) (handler : Handler) (r : Nat) (strip : Bool)
    (payload : Payload) (status : Status) :
    (handler.run h r strip payload status).1.bare = (h.dropPayload payload).bare := by
  unfold run
  dsimp only
  cases handler.plan { registry := r, strip, bytes := payload.bytes, status } h.exceptions with
  | discard answer =>
    simp only [Holdings.dropPayload, Holdings.bare_releaseAll, bare_realize]
  | resolve through onTaken onFault =>
    have htaken := Holdings.bare_unpackException hitems hexceptions through payload
    rw [← htaken]
    dsimp only
    obtain ⟨after, result⟩ := h.unpackException through payload
    cases result with
    | error fault => exact bare_realize after _ _
    | ok e =>
      simp only [Holdings.bare_dropException, bare_realize]

namespace Bridge

/-! ## §5 Reconstructing -/

theorem bare_settlePlain (b : Bridge) (h : Holdings) (status : Status) :
    (b.settlePlain h status).1.bare = (h.dropStatus status).bare := by
  simp only [settlePlain, Holdings.dropStatus, Holdings.bare_releaseAll]
  rfl

theorem bare_handle {h : Holdings} (hitems : h.items.Attended) (hexceptions : h.exceptions.Attended)
    (b : Bridge) (handler : Handler) (payload : Payload) (rest : Status) :
    (b.handle h handler payload rest).1.bare = ((h.dropPayload payload).dropStatus rest).bare := by
  have hrun := handler.bare_run hitems hexceptions b.registry b.config.strip payload rest
  have hdrop : ∀ after : Holdings, after.bare = (h.dropPayload payload).bare →
      (after.dropStatus rest).bare = ((h.dropPayload payload).dropStatus rest).bare := by
    intro after heq
    rw [Holdings.dropStatus, Holdings.dropStatus, Holdings.bare_releaseAll, heq,
      Holdings.bare_releaseAll]
  unfold handle
  revert hrun
  obtain ⟨after, result⟩ := handler.run h b.registry b.config.strip payload rest
  intro hrun
  cases result with
  | ok e => exact hdrop after hrun
  | error fault =>
    cases b.config.onUnresolved with
    | fail => exact hdrop after hrun
    | fallback => exact (bare_settlePlain b after rest).trans (hdrop after hrun)

/-- A handler is dispatched to for the only slot of a status. -/
theorem classify_eq_handler_iff {b : Bridge} {status : Status} {key : String} :
    b.classify status = .handler key ↔ status.keys = [key] ∧ b.table.contains key = true := by
  unfold classify
  split
  · next hkeys => simp [hkeys]
  · next only hkeys =>
    rw [hkeys, List.singleton_inj]
    split
    · next hbound =>
      rw [Dispatch.handler.injEq]
      constructor
      · rintro rfl
        exact ⟨rfl, hbound⟩
      · rintro ⟨heq, -⟩
        exact heq
    · next hfree =>
      constructor
      · intro heq
        cases heq
      · rintro ⟨rfl, hbound⟩
        exact absurd hbound hfree
  · next keys _ hmany => split <;> simp_all

end Bridge

/-- The only slot of a status holds everything that the status holds. -/
theorem Status.take?_of_keys {status : Status} {key : String} (hkeys : status.keys = [key]) :
    ∃ payload rest, status.take? key = some (payload, rest) ∧ rest.shares = []
      ∧ status.shares = payload.shares := by
  obtain ⟨code, message, ⟨entries⟩⟩ := status
  obtain ⟨⟨only, payload⟩, hentries, hkey⟩ := List.map_eq_singleton_iff.mp hkeys
  subst hentries hkey
  refine ⟨payload, { code, message, slots := {} }, ?_, rfl, ?_⟩
  · simp [take?, slot?, eraseSlot, KeyedList.find?, KeyedList.erase, KeyedList.eraseEntry]
  · cases howner : payload.owner <;>
      simp [shares, owners, payloads, KeyedList.values, Payload.shares, howner]

namespace Bridge

/-- Apart from the exceptions, reconstructing leaves what dropping the status leaves. -/
theorem bare_reconstruct {h : Holdings} (hitems : h.items.Attended)
    (hexceptions : h.exceptions.Attended) (b : Bridge) (status : Status) :
    (b.reconstruct h status).1.bare = (h.dropStatus status).bare := by
  unfold reconstruct
  split
  · rfl
  · cases hclass : b.classify status with
    | plain => exact bare_settlePlain b h status
    | ambiguous => exact bare_settlePlain b h status
    | handler key =>
      obtain ⟨hkeys, _⟩ := classify_eq_handler_iff.mp hclass
      obtain ⟨payload, rest, htake, hrest, hshares⟩ := Status.take?_of_keys hkeys
      simp only [htake]
      cases b.table.get? key with
      | none => exact bare_settlePlain b h status
      | some handler =>
        have hhandle := bare_handle hitems hexceptions b handler payload rest
        simp only [Holdings.dropStatus, hrest, Holdings.releaseAll_nil, hshares] at hhandle ⊢
        exact hhandle

end Bridge

namespace Script.Session

/-! ## §6 After a script -/

/-- After a script, a bridge that reconstructs a status leaves the registries, with their free slots
and generations, the tallies, and the owners and items that are alive, just as they would be had the
status been dropped: for success and failure, whichever handlers the bridge has, whatever the slots
hold, and whether an exception comes out or a fault. -/
theorem reconstruct_drops (identities : List UInt64) (bridges : List Bridge)
    (commands : List Command) (b : Bridge) (status : Status) :
    let h := ((start identities bridges).after commands).holdings
    (b.reconstruct h status).1.registries = (h.dropStatus status).registries
      ∧ (b.reconstruct h status).1.tallies = (h.dropStatus status).tallies
      ∧ (b.reconstruct h status).1.owners = (h.dropStatus status).owners
      ∧ (b.reconstruct h status).1.items = (h.dropStatus status).items := by
  intro h
  have hconsistent := after_consistent identities bridges commands
  have hbare : (b.reconstruct h status).1.bare = (h.dropStatus status).bare :=
    Bridge.bare_reconstruct hconsistent.items_attended hconsistent.exceptions_attended b status
  simp only [Holdings.bare, Holdings.mk.injEq] at hbare
  obtain ⟨hregistries, howners, hitems, _, htallies⟩ := hbare
  exact ⟨hregistries, htallies, howners, hitems⟩

end Script.Session

end Ferry
