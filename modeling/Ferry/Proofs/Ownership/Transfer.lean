import Ferry.Proofs.KeyedTotal
import Ferry.Proofs.Ownership.Quiet
import Ferry.Proofs.Resolve
import Mathlib.Tactic.Abel

/-!
# What operations do with shares

An operation uses up shares that its caller hands in and hands out others.  It is a *transfer* from
the first to the second if, whatever else is in hand, it comes down to a quiet run of elementary
steps.  The rest in hand stays as it is, so transfers of parts make up transfers of the whole.

Every operation of the holdings is stated as one transfer, assembled from those of the operations
that it calls.

Main statements: `Transfer.trans`, `Transfer.frame` and `Transfer.dropping`; `releaseAll_transfer`,
that a cascade uses up just the shares it is given; and one statement for each operation on slots,
entries and tokens.

## Sections

1. Transfers.
2. Elementary transfers.
3. Cascades.
4. Adding shares.
5. Slots.
6. Entries.
7. Tokens.
-/

namespace Ferry

open Account

/-! ## §1 Transfers -/

/-- The holdings change from `h` to `h'`; the shares `given` are used up and the shares `taken` are
handed out. -/
def Transfer (h : Holdings) (given : Multiset Share) (h' : Holdings) (taken : Multiset Share) :
    Prop :=
  ∀ rest d, Consistent ⟨h, given + rest, d⟩ →
    QuietRun ⟨h, given + rest, d⟩ ⟨h', taken + rest, d⟩

namespace Transfer

variable {h h' h'' : Holdings} {A B C : Multiset Share}

theorem refl (h : Holdings) (A : Multiset Share) : Transfer h A h A :=
  fun _ _ _ => QuietRun.refl _

theorem trans (hfirst : Transfer h A h' B) (hsecond : Transfer h' B h'' C) :
    Transfer h A h'' C := by
  intro rest d ha
  have hrun := hfirst rest d ha
  exact hrun.trans (hsecond rest d (hrun.consistent ha))

/-- What is not used is kept. -/
theorem frame (htransfer : Transfer h A h' B) (more : Multiset Share) :
    Transfer h (A + more) h' (B + more) := by
  intro rest d ha
  -- What is kept joins the rest, which a transfer leaves alone.
  rw [add_assoc] at ha ⊢
  rw [add_assoc]
  exact htransfer (more + rest) d ha

/-- The shares of a transfer may be arranged in another order. -/
theorem cast (htransfer : Transfer h A h' B) {A' B' : Multiset Share} (hgiven : A' = A)
    (htaken : B = B') : Transfer h A' h' B' := by
  subst hgiven htaken
  exact htransfer

/-- A transfer may rely on what holds of consistent accounts. -/
theorem of_consistent
    (htransfer : (∃ rest d, Consistent ⟨h, A + rest, d⟩) → Transfer h A h' B) :
    Transfer h A h' B :=
  fun rest d ha => htransfer ⟨rest, d, ha⟩ rest d ha

/-- The second of two transfers may rely on the registries that the first has left. -/
theorem bind (hfirst : Transfer h A h' B)
    (hsecond : h'.registries.size = h.registries.size → Transfer h' B h'' C) :
    Transfer h A h'' C := by
  intro rest d ha
  have hrun := hfirst rest d ha
  exact hrun.trans (hsecond hrun.run.size_eq rest d (hrun.consistent ha))

/-- An operation that uses nothing up works whatever is in hand. -/
theorem made (htransfer : Transfer h 0 h' B) {rest : Multiset Share} {d : Dealings}
    (ha : Consistent ⟨h, rest, d⟩) : Consistent ⟨h', B + rest, d⟩ := by
  have hzero : Consistent ⟨h, 0 + rest, d⟩ := by rwa [zero_add]
  exact (htransfer rest d hzero).consistent hzero

/-- What is made comes on top of what is in hand. -/
theorem onTop (htransfer : Transfer h 0 h' B) (A : Multiset Share) :
    Transfer h A h' (B + A) :=
  (htransfer.frame A).cast (zero_add A).symm rfl

/-- A part of what is handed out is given up at once. -/
theorem dropping (htransfer : Transfer h A h' (B + C)) (hdrop : Transfer h' C h'' 0) :
    Transfer h A h'' B := by
  refine htransfer.trans ?_
  exact (hdrop.frame B).cast (add_comm _ _) (zero_add _)

/-! ## §2 Elementary transfers -/

/-- Something that has a holder gets another. -/
theorem share {s : Share} (hpos : 0 < h.holders s) (A : Multiset Share) :
    Transfer h A (h.retain s) ({s} + A) := by
  intro rest d _
  rw [add_assoc]
  exact (QuietStep.share s hpos).quiet

/-- What is in hand gets another holder. -/
theorem share_of_mem {s : Share} (hs : s ∈ A) : Transfer h A (h.retain s) ({s} + A) := by
  refine of_consistent fun ⟨rest, d, ha⟩ => ?_
  -- By the balance, what is in hand has a holder.
  exact share (ha.holders_pos (Multiset.mem_add.mpr (Or.inl hs))) A

theorem letGo (h : Holdings) (s : Share) : Transfer h {s} (h.letGo s).1 ((h.letGo s).2 : List _) :=
  fun _ _ _ => (QuietStep.letGo s).quiet

theorem newItem (h : Holdings) (item : Item) :
    Transfer h (item.shares : List _) (h.newItem item).1 {Share.item (h.newItem item).2} :=
  fun _ _ _ => (QuietStep.newItem item).quiet

theorem newNode (h : Holdings) (node : Node) :
    Transfer h (node.shares : List _) (h.withExceptions (h.exceptions.insert node).1)
      {Share.exception (h.exceptions.insert node).2} :=
  fun _ _ _ => (QuietStep.newNode node).quiet

/-- An exception in hand that nobody else holds is edited. -/
theorem relink {e : ExceptionRef} {node : Node} (hnode : h.exceptions.content? e = some node)
    (f : Node → Node)
    (htrade : A + (node.shares : Multiset Share) = B + ((f node).shares : Multiset Share))
    (hhand : Share.exception e ∈ B) (hsole : h.exceptions.holders e ≤ 1) :
    Transfer h A (h.withExceptions (h.exceptions.edit e f)) B :=
  fun _ _ _ => (QuietStep.relink hnode f htrade hhand hsole).quiet

theorem mint {r : Nat} (hr : r < h.registries.size) (object : Object) :
    Transfer h {Share.object object} (h.mint r object).1 ((h.mint r object).2.shares : List _) :=
  fun _ _ _ => (QuietStep.mint hr object).quiet

end Transfer

/-! ## §3 Cascades -/

namespace Holdings

/-- Letting go of exceptions along their links uses up the shares that are pending. -/
theorem dropAll_transfer (h : Holdings) (g : ExceptionGraph) (pending : List ExceptionRef) :
    Transfer (h.withExceptions g) (pending.map Share.exception : List _)
      (h.withExceptions (ExceptionGraph.dropAll g pending)) 0 := by
  induction g, pending using ExceptionGraph.dropAll.induct with
  | case1 g =>
    rw [ExceptionGraph.dropAll_nil]
    exact Transfer.refl _ _
  | case2 g e rest released ih =>
    rw [ExceptionGraph.dropAll_cons]
    -- What the first reference sets free is pending before the others.
    have hfirst := (Transfer.letGo (h.withExceptions g) (.exception e)).frame
      (rest.map Share.exception : List _)
    refine (hfirst.cast rfl ?_).trans ih
    show ((ExceptionGraph.departing (g.release e).2).map Share.exception : Multiset Share)
        + (rest.map Share.exception : List _) = _
    rw [Multiset.coe_add, ← List.map_append]

theorem drop_transfer (h : Holdings) (g : ExceptionGraph) (e : ExceptionRef) :
    Transfer (h.withExceptions g) {Share.exception e}
      (h.withExceptions (ExceptionGraph.drop g e)) 0 :=
  dropAll_transfer h g [e]

/-- Giving up a share sets free what the cascade goes on with. -/
theorem settle_transfer (h : Holdings) (s : Share) :
    Transfer h {s} (h.settle s).1 ((h.settle s).2 : List _) := by
  cases s with
  | owner ref => exact Transfer.letGo h (.owner ref)
  | item ref => exact Transfer.letGo h (.item ref)
  | exception ref => exact drop_transfer h h.exceptions ref

/-- A cascade uses up the shares that are pending. -/
theorem releaseAll_transfer (h : Holdings) (pending : List Share) :
    Transfer h (pending : List _) (h.releaseAll pending) 0 := by
  induction h, pending using releaseAll.induct with
  | case1 h =>
    rw [releaseAll_nil]
    exact Transfer.refl _ _
  | case2 h share rest settled ih =>
    rw [releaseAll_cons]
    refine ((settle_transfer h share).frame (rest : List _)).trans ?_
    rw [Multiset.coe_add]
    exact ih

theorem dropException_transfer (h : Holdings) (e : ExceptionRef) :
    Transfer h {Share.exception e} (h.dropException e) 0 :=
  releaseAll_transfer h [.exception e]

theorem dropObject_transfer (h : Holdings) (object : Object) :
    Transfer h {Share.object object} (h.dropObject object) 0 :=
  releaseAll_transfer h [.object object]

theorem dropPayload_transfer (h : Holdings) (payload : Payload) :
    Transfer h (payload.shares : List _) (h.dropPayload payload) 0 :=
  releaseAll_transfer h payload.shares

theorem dropStatus_transfer (h : Holdings) (status : Status) :
    Transfer h (status.shares : List _) (h.dropStatus status) 0 :=
  releaseAll_transfer h status.shares

/-! ## §4 Adding shares -/

/-- Another copy of a payload in hand holds a share of its own. -/
theorem retainPayload_transfer (h : Holdings) {payload : Payload} {A : Multiset Share}
    (hpayload : (payload.shares : Multiset Share) ≤ A) :
    Transfer h A (h.retainPayload payload) ((payload.shares : Multiset Share) + A) := by
  obtain ⟨bytes, owner⟩ := payload
  cases owner with
  | none => exact (Transfer.refl h A).cast rfl (zero_add A).symm
  | some owner => exact Transfer.share_of_mem (Multiset.singleton_le.mp hpayload)

/-- Another copy of a status in hand holds shares of its own. -/
theorem retainStatus_transfer (h : Holdings) {status : Status} {A : Multiset Share}
    (hstatus : (status.shares : Multiset Share) ≤ A) :
    Transfer h A (h.retainStatus status) ((status.shares : Multiset Share) + A) := by
  unfold retainStatus Status.shares at *
  generalize status.owners = owners at *
  induction owners generalizing h A with
  | nil => exact (Transfer.refl h A).cast rfl (zero_add A).symm
  | cons owner rest ih =>
    -- The first owner gets its share; those of the others are still within what is in hand, and
    -- the induction goes on with one share more.
    have hmem : Share.owner owner ∈ A := Multiset.mem_of_le hstatus (by simp)
    have hrest : ((rest.map Share.owner : List _) : Multiset Share) ≤ {Share.owner owner} + A := by
      refine le_trans ?_ (Multiset.le_add_left A _)
      refine le_trans ?_ hstatus
      exact Multiset.le_cons_self _ _
    refine (Transfer.share_of_mem (h := h) hmem).trans ?_
    refine (ih (h.retainOwner owner) hrest).cast rfl ?_
    rw [List.map_cons, ← Multiset.cons_coe, ← Multiset.singleton_add]
    abel

/-! ## §5 Slots -/

end Holdings

namespace Status

/-- A status holds what its slots hold. -/
theorem coe_shares (status : Status) :
    (status.shares : Multiset Share)
      = status.slots.total fun payload => (payload.shares : Multiset Share) := by
  unfold Status.shares owners payloads KeyedList.total
  induction status.slots.values with
  | nil => rfl
  | cons payload rest ih =>
    obtain ⟨bytes, owner⟩ := payload
    rw [List.map_cons, List.sum_cons, ← ih]
    cases owner <;> rfl

/-- Putting a payload into a slot trades it for the one in the slot. -/
theorem shares_setSlot (status : Status) (key : String) (payload : Payload) :
    ((status.setSlot key payload).shares : Multiset Share)
        + status.slots.part (fun payload => (payload.shares : Multiset Share)) key
      = status.shares + payload.shares := by
  rw [coe_shares, coe_shares, KeyedList.total_erase _ status.slots key]
  show (status.slots.insert key payload).total _ + _ = _
  rw [KeyedList.total_insert]
  abel

/-- A snapshot owns nothing. -/
theorem shares_snapshot (status : Status) : (status.snapshot.shares : Multiset Share) = 0 := by
  have hfold : ∀ (entries : List (String × List UInt8)) (copy : Status),
      (copy.shares : Multiset Share) = 0 →
      ((entries.foldl (fun copy entry => copy.setSlot entry.1 (.ofBytes entry.2)) copy).shares
        : Multiset Share) = 0 := by
    intro entries
    induction entries with
    | nil => exact fun _ hcopy => hcopy
    | cons entry rest ih =>
      intro copy hcopy
      refine ih _ ?_
      -- A slot of bytes adds no share, so there is still none.
      have hset := shares_setSlot copy entry.1 (.ofBytes entry.2)
      rw [hcopy, zero_add] at hset
      exact Multiset.le_zero.mp ((Multiset.le_add_right _ _).trans_eq hset)
  exact hfold _ _ rfl

theorem shares_eraseSlot (status : Status) (key : String) :
    (status.shares : Multiset Share)
      = status.slots.part (fun payload => (payload.shares : Multiset Share)) key
        + (status.eraseSlot key).shares := by
  rw [coe_shares, coe_shares]
  exact KeyedList.total_erase _ status.slots key

theorem shares_of_slot? {status : Status} {key : String} {payload : Payload}
    (hslot : status.slot? key = some payload) :
    (status.shares : Multiset Share) = payload.shares + (status.eraseSlot key).shares := by
  rw [shares_eraseSlot status key, KeyedList.part_of_find? _ hslot]

/-- Taking a payload out of a slot parts its share from those of the status. -/
theorem shares_of_take? {status rest : Status} {key : String} {payload : Payload}
    (htake : status.take? key = some (payload, rest)) :
    (status.shares : Multiset Share) = payload.shares + rest.shares := by
  obtain ⟨found, hslot, heq⟩ := Option.map_eq_some_iff.mp htake
  cases heq
  exact shares_of_slot? hslot

end Status

namespace Holdings

theorem dropOptional_transfer (h : Holdings) (m : KeyedList Payload) (key : String) :
    Transfer h (m.part (fun payload => (payload.shares : Multiset Share)) key)
      (h.dropOptional (m.find? key)) 0 := by
  cases hfind : m.find? key with
  | none =>
    rw [KeyedList.part_of_find?_none _ hfind]
    exact Transfer.refl _ _
  | some payload =>
    rw [KeyedList.part_of_find? _ hfind]
    exact dropPayload_transfer h payload

theorem setSlot_transfer (h : Holdings) (status : Status) (key : String) (payload : Payload) :
    Transfer h ((status.shares : Multiset Share) + (payload.shares : Multiset Share))
      (h.setSlot status key payload).1
      ((h.setSlot status key payload).2.shares : List _) := by
  have hdrop := (dropOptional_transfer h status.slots key).frame
    ((status.setSlot key payload).shares : List _)
  refine hdrop.cast ?_ (zero_add _)
  rw [← Status.shares_setSlot, add_comm]

theorem eraseSlot_transfer (h : Holdings) (status : Status) (key : String) :
    Transfer h (status.shares : List _) (h.eraseSlot status key).1
      ((h.eraseSlot status key).2.shares : List _) := by
  have hdrop := (dropOptional_transfer h status.slots key).frame
    ((status.eraseSlot key).shares : List _)
  exact hdrop.cast (Status.shares_eraseSlot status key) (zero_add _)

/-! ## §6 Entries -/

/-- The shares that come with a result; a fault comes with none. -/
def handed {α : Type} (shares : α → Multiset Share) : Except Fault α → Multiset Share
  | .ok value => shares value
  | .error _ => 0

/-- The share that comes with an object that was found. -/
abbrev found : Except Fault Object → Multiset Share :=
  handed fun object => {Share.object object}

/-- Lending an object of a live entry hands out a share of it. -/
theorem lend_transfer (h : Holdings) {r : Nat} {handle : Handle} (result : Except Fault Object)
    (hlive : ∀ object, result = .ok object → (h.registry r).borrow handle = .ok object) :
    Transfer h 0 (h.lend result).1 (found (h.lend result).2) := by
  cases result with
  | error fault => exact Transfer.refl _ _
  | ok object =>
    refine Transfer.of_consistent fun ⟨rest, d, ha⟩ => ?_
    -- The entry holds a share of the object, so the object has a holder.
    have hpos := ha.holders_pos_of_borrow (hlive object rfl)
    exact (Transfer.share hpos 0).cast rfl (add_zero _)

theorem borrow_transfer (h : Holdings) (r : Nat) (handle : Handle) :
    Transfer h 0 (h.borrow r handle).1 (found (h.borrow r handle).2) :=
  lend_transfer h _ fun _ hfound => hfound

theorem borrowIf_eq_ok_iff {registry : Registry Object} {test : Object → Bool} {mismatch : Fault}
    {handle : Handle} {object : Object} :
    registry.borrowIf test mismatch handle = .ok object ↔
      registry.borrow handle = .ok object ∧ test object = true := by
  unfold Registry.borrowIf
  cases hborrow : registry.borrow handle with
  | error fault => simp
  | ok other =>
    by_cases htest : test other = true
    · simp only [htest, if_true, Except.ok.injEq]
      exact ⟨fun heq => ⟨heq, heq ▸ htest⟩, fun hboth => hboth.1⟩
    · simp only [htest, if_false, reduceCtorEq, false_iff, Except.ok.injEq, Bool.false_eq_true]
      rintro ⟨rfl, hholds⟩
      exact htest hholds

theorem borrowAs_transfer (h : Holdings) (r : Nat) (type : ObjectType) (handle : Handle) :
    Transfer h 0 (h.borrowAs r type handle).1 (found (h.borrowAs r type handle).2) :=
  lend_transfer h _ fun _ hfound => (borrowIf_eq_ok_iff.mp hfound).1

/-! ## §7 Tokens -/

theorem write_transfer (h : Holdings) {r : Nat} (hr : r < h.registries.size) (status : Status)
    (key : String) (object : Object) :
    Transfer h ((status.shares : Multiset Share) + {Share.object object})
      (h.write r status key (some object)).1
      ((h.write r status key (some object)).2.shares : List _) := by
  have hmint := (Transfer.mint hr object).frame (status.shares : List _)
  refine (hmint.cast (add_comm _ _) ?_).trans (setSlot_transfer _ status key _)
  exact add_comm _ _

/-- Redeeming an owner is giving it up. -/
theorem redeem_transfer (h : Holdings) {owner : OwnerRef} {handle : Handle}
    (hentry : h.entryOf? owner = some handle) (hlast : h.owners.holders owner ≤ 1) :
    Transfer h {Share.owner owner} (h.redeem owner).1 (found (h.redeem owner).2) := by
  obtain ⟨duty, hduty, hhandle⟩ := Option.bind_eq_some_iff.mp hentry
  have hgone := Pool.release_snd_of_last hduty hlast
  cases duty with
  | tally counter => cases hhandle
  | entry r other =>
    -- The owner goes, and its duty is done by handing the object over.
    have hletGo := Transfer.letGo h (.owner owner)
    simp only [letGo, settle, hgone, discharge] at hletGo
    simp only [redeem, hgone, fetch]
    cases hfetch : (Holdings.registry { h with owners := (h.owners.release owner).1 } r).fetch
      other with
    | error fault =>
      rw [hfetch] at hletGo
      exact hletGo
    | ok fetched =>
      rw [hfetch] at hletGo
      exact hletGo

/-- Consuming a payload uses up its share. -/
theorem consume_transfer (h : Holdings) (r : Nat) (payload : Payload) :
    Transfer h (payload.shares : List _) (h.consume r payload).1
      (found (h.consume r payload).2) := by
  unfold consume
  split
  · exact dropPayload_transfer h payload
  · rename_i handle owner hresolve
    obtain ⟨_, howner, hentry⟩ := (resolve_eq_ok_iff _ _ _ _ _).mp hresolve
    split
    · rename_i hlast
      have hshares : payload.shares = [.owner owner] := by simp [Payload.shares, howner]
      rw [hshares]
      exact redeem_transfer h hentry hlast
    · -- The other holders keep the entry, so its object is only borrowed.
      have hborrow := (borrow_transfer h r handle).onTop (payload.shares : List _)
      exact hborrow.dropping (dropPayload_transfer (h.borrow r handle).1 payload)

/-- The share that comes with an exception that was made or found. -/
abbrev foundException : Except Fault ExceptionRef → Multiset Share :=
  handed fun e => {Share.exception e}

theorem unpackException_transfer (h : Holdings) (r : Nat) (payload : Payload) :
    Transfer h (payload.shares : List _) (h.unpackException r payload).1
      (foundException (h.unpackException r payload).2) := by
  have hconsume := consume_transfer h r payload
  unfold unpackException
  split
  · rename_i after e hresult
    rwa [hresult] at hconsume
  · rename_i after item hresult
    rw [hresult] at hconsume
    -- An object of another sort is given up again.
    exact hconsume.trans (dropObject_transfer after (.item item))
  · rename_i after fault hresult
    rwa [hresult] at hconsume

/-- The share that comes with the object of a slot; an absent slot has none. -/
abbrev foundOptional : Except Fault (Option Object) → Multiset Share :=
  handed fun object => (object.toList.map Share.object : List _)

theorem foundOptional_map (result : Except Fault Object) :
    foundOptional (result.map some) = found result := by
  cases result <;> rfl

theorem read_transfer (h : Holdings) (r : Nat) (status : Status) (key : String)
    (type : ObjectType) :
    Transfer h 0 (h.read r status key type).1 (foundOptional (h.read r status key type).2) := by
  unfold read
  split
  · exact Transfer.refl _ _
  · split
    · exact Transfer.refl _ _
    · rw [foundOptional_map]
      exact borrowAs_transfer h r type _

/-- An object of another type is given up again. -/
theorem downcast_transfer (h : Holdings) (type : ObjectType) (result : Except Fault Object) :
    Transfer h (found result) (h.downcast type result).1 (found (h.downcast type result).2) := by
  cases result with
  | error fault => exact Transfer.refl _ _
  | ok object =>
    unfold downcast
    dsimp only
    split
    · exact Transfer.refl _ _
    · exact dropObject_transfer h object

theorem takeOut_transfer (h : Holdings) (r : Nat) (status : Status) (key : String)
    (type : ObjectType) :
    Transfer h (status.shares : List _) (h.takeOut r status key type).1
      (((h.takeOut r status key type).2.1.shares : Multiset Share)
        + foundOptional (h.takeOut r status key type).2.2) := by
  unfold takeOut
  split
  · exact (Transfer.refl _ _).cast rfl (add_zero _).symm
  · rename_i payload rest htake
    split
    · exact (Transfer.refl _ _).cast rfl (add_zero _).symm
    -- The payload parts from the status and is used up by the consumption.
    · have hconsume := (consume_transfer h r payload).trans (downcast_transfer _ type _)
      refine (hconsume.frame (rest.shares : List _)).cast (Status.shares_of_take? htake) ?_
      rw [foundOptional_map, add_comm]

theorem throughToken_transfer (h : Holdings) {r : Nat} (hr : r < h.registries.size)
    (object : Object) :
    Transfer h {Share.object object} (h.throughToken r object).1
      (found (h.throughToken r object).2) := by
  have hconsume := (Transfer.mint hr object).trans (consume_transfer _ r _)
  unfold throughToken
  dsimp only
  split
  · rename_i type _
    exact hconsume.trans (downcast_transfer _ type _)
  · exact hconsume

end Holdings

end Ferry
