import Ferry.Proofs.Ownership.Bridges
import Ferry.Script.Session

/-!
# Shares of a session

The variables of a session hold shares: all that is in hand between two commands.  Binding a name
takes shares into the session and gives up those that the name held; unbinding hands them out.

A session *passes* from `s` to `s'` if the holdings are changed by a transfer whose shares the
variables account for.  Commands are put together from passages.

Main statements: one passage for each way of binding, unbinding and showing.

## Sections

1. What variables hold.
2. Passages.
3. Binding and unbinding.
4. Looking up.
5. Showing.
-/

namespace Ferry.Script

/-! ## §1 What variables hold -/

/-- The share that an object variable holds. -/
def ObjectVariable.shares (kept : ObjectVariable) : Multiset Share :=
  if kept.held then {Share.item kept.ref} else 0

namespace Session

/-- The shares that the payload variables hold. -/
def payloadShares (s : Session) : Multiset Share :=
  s.payloads.total fun payload => (payload.shares : Multiset Share)

/-- The shares that the status variables hold. -/
def statusShares (s : Session) : Multiset Share :=
  s.statuses.total fun status => (status.shares : Multiset Share)

/-- The shares that the exception variables hold. -/
def exceptionShares (s : Session) : Multiset Share :=
  s.exceptions.total fun e => {Share.exception e}

/-- The shares that the object variables hold. -/
def objectShares (s : Session) : Multiset Share :=
  s.objects.total ObjectVariable.shares

/-- The shares that all variables hold. -/
def shares (s : Session) : Multiset Share :=
  s.payloadShares + s.statusShares + s.exceptionShares + s.objectShares

section Lookup

variable {s : Session} {name : String}

/-- Which variable holds a share. -/
theorem mem_shares {share : Share} :
    share ∈ s.shares ↔
      (∃ name payload, (name, payload) ∈ s.payloads.entries ∧ share ∈ payload.shares) ∨
      (∃ name status, (name, status) ∈ s.statuses.entries ∧ share ∈ status.shares) ∨
      (∃ name e, (name, e) ∈ s.exceptions.entries ∧ share = .exception e) ∨
      ∃ name ref, (name, { ref, held := true }) ∈ s.objects.entries ∧ share = .item ref := by
  have hobjects : share ∈ s.objectShares ↔
      ∃ name ref, (name, { ref, held := true }) ∈ s.objects.entries ∧ share = .item ref := by
    unfold objectShares
    rw [KeyedList.mem_total]
    constructor
    -- A variable that was let go holds nothing.
    · rintro ⟨name, ⟨ref, held⟩, hname, hshare⟩
      cases held with
      | false => cases hshare
      | true => exact ⟨name, ref, hname, Multiset.mem_singleton.mp hshare⟩
    · rintro ⟨name, ref, hname, rfl⟩
      exact ⟨name, { ref, held := true }, hname, Multiset.mem_singleton_self _⟩
  unfold shares
  rw [Multiset.mem_add, Multiset.mem_add, Multiset.mem_add, hobjects]
  simp only [payloadShares, statusShares, exceptionShares, KeyedList.mem_total, Multiset.mem_coe,
    Multiset.mem_singleton, or_assoc]

theorem payload_shares_le {payload : Payload} (hfind : s.payloads.find? name = some payload) :
    (payload.shares : Multiset Share) ≤ s.shares := by
  refine (KeyedList.le_total (fun payload : Payload => (payload.shares : Multiset Share))
    hfind).trans ?_
  unfold shares payloadShares
  rw [add_assoc, add_assoc]
  exact Multiset.le_add_right _ _

theorem status_shares_le {status : Status} (hfind : s.statuses.find? name = some status) :
    (status.shares : Multiset Share) ≤ s.shares := by
  refine (KeyedList.le_total (fun status : Status => (status.shares : Multiset Share))
    hfind).trans ?_
  unfold shares statusShares
  rw [add_comm s.payloadShares, add_assoc, add_assoc]
  exact Multiset.le_add_right _ _

theorem exception_mem_shares {e : ExceptionRef} (hfind : s.exceptions.find? name = some e) :
    Share.exception e ∈ s.shares := by
  have hle := KeyedList.le_total (fun e : ExceptionRef => ({Share.exception e} : Multiset Share))
    hfind
  have hmem := Multiset.singleton_le.mp hle
  unfold shares
  exact Multiset.mem_add.mpr (Or.inl (Multiset.mem_add.mpr (Or.inr hmem)))

theorem item_mem_shares {ref : ItemRef} (hheld : s.heldItem? name = some ref) :
    Share.item ref ∈ s.shares := by
  unfold heldItem? at hheld
  split at hheld
  · rename_i found hfind
    cases hheld
    have hle := KeyedList.le_total ObjectVariable.shares hfind
    have hmem : Share.item ref ∈ s.objectShares :=
      Multiset.mem_of_le hle (Multiset.mem_singleton_self _)
    exact Multiset.mem_add.mpr (Or.inr hmem)
  · cases hheld

end Lookup

/-! ## §2 Passages -/

/-- The session `s` is handed the shares `given`, goes over into `s'`, and hands the shares `taken`
out. -/
def Passes (s : Session) (given : Multiset Share) (s' : Session) (taken : Multiset Share) : Prop :=
  Transfer s.holdings (given + s.shares) s'.holdings (taken + s'.shares)

section Passages

variable {s s' s'' : Session} {A B C : Multiset Share}

theorem Passes.refl (s : Session) (A : Multiset Share) : Passes s A s A :=
  Transfer.refl _ _

theorem Passes.trans (hfirst : Passes s A s' B) (hsecond : Passes s' B s'' C) : Passes s A s'' C :=
  Transfer.trans hfirst hsecond

theorem Passes.cast (hpasses : Passes s A s' B) {A' B' : Multiset Share} (hgiven : A' = A)
    (htaken : B = B') : Passes s A' s' B' := by
  subst hgiven htaken
  exact hpasses

/-- What is not used is kept. -/
theorem Passes.frame (hpasses : Passes s A s' B) (more : Multiset Share) :
    Passes s (A + more) s' (B + more) := by
  refine (Transfer.frame hpasses more).cast ?_ ?_ <;> abel

/-- An operation of the holdings leaves the variables alone. -/
theorem Passes.of_transfer {h' : Holdings} (htransfer : Transfer s.holdings A h' B) :
    Passes s A (s.withHoldings h') B :=
  htransfer.frame s.shares

/-- An operation of the holdings may look at what the variables hold. -/
theorem Passes.of_transfer_shares {h' : Holdings}
    (htransfer : Transfer s.holdings s.shares h' (B + s.shares)) :
    Passes s 0 (s.withHoldings h') B :=
  htransfer.cast (zero_add _) rfl

/-- The second of two passages may rely on the registries that the first has left. -/
theorem Passes.bind (hfirst : Passes s A s' B)
    (hsecond : s'.holdings.registries.size = s.holdings.registries.size → Passes s' B s'' C) :
    Passes s A s'' C :=
  Transfer.bind hfirst hsecond

/-! ## §3 Binding and unbinding -/

/-- Removing a name hands out what it held. -/
theorem Passes.of_erase {α : Type} (f : α → Multiset Share) {m : KeyedList α} {name : String}
    {value : α} {others : Multiset Share} (hbefore : s.shares = m.total f + others)
    (hafter : s'.shares = (m.erase name).total f + others) (hsame : s'.holdings = s.holdings)
    (hfind : m.find? name = some value) : Passes s 0 s' (f value) := by
  unfold Passes
  rw [hsame, hbefore, hafter, KeyedList.total_erase f m name, KeyedList.part_of_find? f hfind]
  exact (Transfer.refl _ _).cast (by abel) rfl

/-- Binding a name puts what the new value holds in the place of what the name held. -/
theorem Passes.of_insert {α : Type} (f : α → Multiset Share) {m : KeyedList α} {name : String}
    {value : α} {others : Multiset Share} (hbefore : s.shares = m.total f + others)
    (hafter : s'.shares = (m.insert name value).total f + others)
    (htransfer : Transfer s.holdings (A + m.part f name) s'.holdings (B + f value)) :
    Passes s A s' B := by
  unfold Passes
  rw [hbefore, hafter, KeyedList.total_erase f m name, KeyedList.total_insert f m name value]
  exact (htransfer.frame ((m.erase name).total f + others)).cast (by abel) (by abel)

/-- What the variables hold, payload variables first. -/
theorem shares_payloads (s : Session) (m : KeyedList Payload) (h : Holdings) :
    { s with payloads := m, holdings := h }.shares
      = (m.total fun payload => (payload.shares : Multiset Share))
        + (s.statusShares + s.exceptionShares + s.objectShares) := by
  unfold shares payloadShares statusShares exceptionShares objectShares
  abel

theorem shares_statuses (s : Session) (m : KeyedList Status) (h : Holdings) :
    { s with statuses := m, holdings := h }.shares
      = (m.total fun status => (status.shares : Multiset Share))
        + (s.payloadShares + s.exceptionShares + s.objectShares) := by
  unfold shares payloadShares statusShares exceptionShares objectShares
  abel

theorem shares_exceptions (s : Session) (m : KeyedList ExceptionRef) (h : Holdings) :
    { s with exceptions := m, holdings := h }.shares
      = (m.total fun e => {Share.exception e})
        + (s.payloadShares + s.statusShares + s.objectShares) := by
  unfold shares payloadShares statusShares exceptionShares objectShares
  abel

theorem shares_objects (s : Session) (m : KeyedList ObjectVariable) (h : Holdings) :
    { s with objects := m, holdings := h }.shares
      = m.total ObjectVariable.shares
        + (s.payloadShares + s.statusShares + s.exceptionShares) := by
  unfold shares payloadShares statusShares exceptionShares objectShares
  abel

variable {name : String}

theorem unbindStatus_passes {status : Status} (hfind : s.statuses.find? name = some status) :
    Passes s 0 (s.unbindStatus name) (status.shares : List _) :=
  Passes.of_erase (fun status : Status => (status.shares : Multiset Share))
    (shares_statuses s s.statuses s.holdings) (shares_statuses s _ s.holdings) rfl hfind

theorem unbindPayload_passes {payload : Payload} (hfind : s.payloads.find? name = some payload) :
    Passes s 0 (s.unbindPayload name) (payload.shares : List _) :=
  Passes.of_erase (fun payload : Payload => (payload.shares : Multiset Share))
    (shares_payloads s s.payloads s.holdings) (shares_payloads s _ s.holdings) rfl hfind

theorem unbindException_passes {e : ExceptionRef} (hfind : s.exceptions.find? name = some e) :
    Passes s 0 (s.unbindException name) {Share.exception e} :=
  Passes.of_erase (fun e : ExceptionRef => ({Share.exception e} : Multiset Share))
    (shares_exceptions s s.exceptions s.holdings) (shares_exceptions s _ s.holdings) rfl hfind

/-- A status is unbound and used up. -/
theorem useStatus_passes {status : Status} {h' : Holdings}
    (hfind : s.statuses.find? name = some status)
    (htransfer : Transfer s.holdings (status.shares : List _) h' B) :
    Passes s 0 ((s.unbindStatus name).withHoldings h') B := by
  have hused : Passes (s.unbindStatus name) (status.shares : List _) _ B :=
    Passes.of_transfer htransfer
  exact (unbindStatus_passes hfind).trans hused

/-- A payload is unbound and used up. -/
theorem usePayload_passes {payload : Payload} {h' : Holdings}
    (hfind : s.payloads.find? name = some payload)
    (htransfer : Transfer s.holdings (payload.shares : List _) h' B) :
    Passes s 0 ((s.unbindPayload name).withHoldings h') B := by
  have hused : Passes (s.unbindPayload name) (payload.shares : List _) _ B :=
    Passes.of_transfer htransfer
  exact (unbindPayload_passes hfind).trans hused

/-- A payload that a variable holds, alone or in a slot, is shared. -/
theorem retainPayload_passes {payload : Payload}
    (hle : (payload.shares : Multiset Share) ≤ s.shares) :
    Passes s 0 (s.withHoldings (s.holdings.retainPayload payload)) (payload.shares : List _) :=
  Passes.of_transfer_shares (Holdings.retainPayload_transfer s.holdings hle)

/-- An exception that a variable holds is shared. -/
theorem retainException_passes {e : ExceptionRef} (hfind : s.exceptions.find? name = some e) :
    Passes s 0 (s.withHoldings (s.holdings.retainException e)) {Share.exception e} :=
  Passes.of_transfer_shares (Transfer.share_of_mem (exception_mem_shares hfind))

/-- Changing the status that a variable holds. -/
theorem updateStatus_passes {old : Status} (hfind : s.statuses.find? name = some old)
    {changed : Holdings × Status}
    (hchanged : Transfer s.holdings (A + (old.shares : List _)) changed.1
      (B + (changed.2.shares : List _))) :
    Passes s A (s.updateStatus name changed) B := by
  refine Passes.of_insert (fun status : Status => (status.shares : Multiset Share))
    (shares_statuses s s.statuses s.holdings) (shares_statuses s _ changed.1) ?_
  rw [KeyedList.part_of_find? _ hfind]
  exact hchanged

theorem setSlot_passes {status : Status} (hfind : s.statuses.find? name = some status)
    (key : String) (payload : Payload) :
    Passes s (payload.shares : List _)
      (s.updateStatus name (s.holdings.setSlot status key payload)) 0 := by
  refine updateStatus_passes hfind ?_
  exact (Holdings.setSlot_transfer s.holdings status key payload).cast (add_comm _ _)
    (zero_add _).symm

theorem eraseSlot_passes {status : Status} (hfind : s.statuses.find? name = some status)
    (key : String) : Passes s 0 (s.updateStatus name (s.holdings.eraseSlot status key)) 0 := by
  refine updateStatus_passes hfind ?_
  exact (Holdings.eraseSlot_transfer s.holdings status key).cast (zero_add _) (zero_add _).symm

theorem bindStatus_passes (s : Session) (name : String) (status : Status) :
    Passes s (status.shares : List _) (s.bindStatus name status) 0 := by
  refine Passes.of_insert (fun status : Status => (status.shares : Multiset Share))
    (shares_statuses s s.statuses s.holdings) (shares_statuses s _ _) ?_
  -- What the name held before is given up.
  have hdrop : Transfer s.holdings
      (s.statuses.part (fun status : Status => (status.shares : Multiset Share)) name)
      (dropOldStatus s.holdings (s.statuses.find? name)) 0 := by
    cases hfind : s.statuses.find? name with
    | none =>
      rw [KeyedList.part_of_find?_none _ hfind]
      exact Transfer.refl _ _
    | some old =>
      rw [KeyedList.part_of_find? _ hfind]
      exact Holdings.dropStatus_transfer s.holdings old
  exact (hdrop.frame (status.shares : List _)).cast (add_comm _ _) rfl

theorem bindPayload_passes (s : Session) (name : String) (payload : Payload) :
    Passes s (payload.shares : List _) (s.bindPayload name payload) 0 := by
  refine Passes.of_insert (fun payload : Payload => (payload.shares : Multiset Share))
    (shares_payloads s s.payloads s.holdings) (shares_payloads s _ _) ?_
  have hdrop := Holdings.dropOptional_transfer s.holdings s.payloads name
  exact (hdrop.frame (payload.shares : List _)).cast (add_comm _ _) rfl

theorem bindException_passes (s : Session) (name : String) (e : ExceptionRef) :
    Passes s {Share.exception e} (s.bindException name e) 0 := by
  refine Passes.of_insert (fun e : ExceptionRef => ({Share.exception e} : Multiset Share))
    (shares_exceptions s s.exceptions s.holdings) (shares_exceptions s _ _) ?_
  -- What the name held before is given up.
  have hdrop : Transfer s.holdings
      (s.exceptions.part (fun e : ExceptionRef => ({Share.exception e} : Multiset Share)) name)
      (dropOldException s.holdings (s.exceptions.find? name)) 0 := by
    cases hfind : s.exceptions.find? name with
    | none =>
      rw [KeyedList.part_of_find?_none _ hfind]
      exact Transfer.refl _ _
    | some old =>
      rw [KeyedList.part_of_find? _ hfind]
      exact Holdings.dropException_transfer s.holdings old
  exact (hdrop.frame {Share.exception e}).cast (add_comm _ _) rfl

theorem keepException_passes (s : Session) (name : Option String) (e : ExceptionRef) :
    Passes s {Share.exception e} (s.keepException name e) 0 := by
  cases name with
  | some name => exact bindException_passes s name e
  | none => exact Passes.of_transfer (Holdings.dropException_transfer s.holdings e)

/-- Giving up the share of an object variable, if it holds one. -/
theorem dropOldObject_transfer (h : Holdings) (m : KeyedList ObjectVariable) (name : String) :
    Transfer h (m.part ObjectVariable.shares name) (dropOldObject h (m.find? name)) 0 := by
  cases hfind : m.find? name with
  | none =>
    rw [KeyedList.part_of_find?_none _ hfind]
    exact Transfer.refl _ _
  | some kept =>
    rw [KeyedList.part_of_find? _ hfind]
    obtain ⟨ref, held⟩ := kept
    cases held with
    | false => exact Transfer.refl _ _
    | true => exact Holdings.dropObject_transfer h (.item ref)

theorem bindObject_passes (s : Session) (name : String) (ref : ItemRef) :
    Passes s {Share.item ref} (s.bindObject name ref) 0 := by
  refine Passes.of_insert ObjectVariable.shares (shares_objects s s.objects s.holdings)
    (shares_objects s _ _) ?_
  have hdrop := dropOldObject_transfer s.holdings s.objects name
  exact (hdrop.frame {Share.item ref}).cast (add_comm _ _) rfl

theorem letGoObject_passes {kept : ObjectVariable} (hfind : s.objects.find? name = some kept) :
    Passes s 0 (s.letGoObject name kept) 0 := by
  refine Passes.of_insert ObjectVariable.shares (shares_objects s s.objects s.holdings)
    (shares_objects s _ _) ?_
  have hdrop := dropOldObject_transfer s.holdings s.objects name
  rw [hfind] at hdrop
  exact hdrop.cast (zero_add _) rfl

/-! ## §4 Looking up -/

/-- Going on with what a look-up finds. -/
theorem given_passes {α : Type} {found : Option α} {act : α → Session × Reply}
    (hact : ∀ value, found = some value → Passes s 0 (act value).1 0) :
    Passes s 0 (s.given name found act).1 0 := by
  cases found with
  | none => exact Passes.refl _ _
  | some value => exact hact value rfl

/-- Going on with the value of a name among given variables, or with nothing. -/
theorem givenOptional_passes {α : Type} {among : KeyedList α} {optional : Option String}
    {act : Option α → Session × Reply}
    (hact : ∀ found, (∀ value, found = some value → ∃ key, among.find? key = some value) →
      Passes s 0 (act found).1 0) :
    Passes s 0 (s.givenOptional among optional act).1 0 := by
  cases optional with
  | none => exact hact none nofun
  | some key =>
    refine given_passes fun value hfind => hact (some value) ?_
    rintro _ ⟨⟩
    exact ⟨key, hfind⟩

/-- A bridge that is found works on a registry that is there. -/
theorem onBridge_passes {place : Nat} {act : Bridge → Session × Reply}
    (hact : ∀ b : Bridge, b.registry < s.holdings.registries.size → Passes s 0 (act b).1 0) :
    Passes s 0 (s.onBridge place act).1 0 := by
  refine given_passes fun b hfind => hact b ?_
  simpa using (Option.filter_eq_some_iff.mp hfind).2

/-! ## §5 Showing -/

/-- Showing an object gives up the share that came with it. -/
theorem showObject_passes (s : Session) (result : Except Fault Object) :
    Passes s (Holdings.found result) (s.showObject result).1 0 := by
  cases result with
  | error fault => exact Passes.refl _ _
  | ok object => exact Passes.of_transfer (Holdings.dropObject_transfer s.holdings object)

theorem showOptionalObject_passes (s : Session) (result : Except Fault (Option Object)) :
    Passes s (Holdings.foundOptional result) (s.showOptionalObject result).1 0 := by
  rcases result with fault | none | object
  · exact Passes.refl _ _
  · exact Passes.refl _ _
  · exact showObject_passes s (.ok object)

theorem showAndKeep_passes (s : Session) (name : Option String) (e : ExceptionRef) :
    Passes s {Share.exception e} (s.showAndKeep name e).1 0 :=
  keepException_passes s name e

theorem showAndBind_passes {made : Holdings × Status}
    (hmade : Passes s A (s.withHoldings made.1) (made.2.shares : List _)) :
    Passes s A (s.showAndBind name made).1 0 :=
  hmade.trans (bindStatus_passes _ name made.2)

theorem showAndBindPayload_passes {made : Holdings × Payload}
    (hmade : Passes s A (s.withHoldings made.1) (made.2.shares : List _)) :
    Passes s A (s.showAndBindPayload name made).1 0 :=
  hmade.trans (bindPayload_passes _ name made.2)

end Passages

end Session

end Ferry.Script
