import Ferry.Proofs.Ownership.Cascade
import Ferry.Proofs.Ownership.Exact
import Ferry.Proofs.Resolve
import Ferry.Proofs.Token.RoundTrip

/-!
# A registry is a partial map

Slots, generations and the free list are not seen from outside: a registry acts as a partial map
from handles to objects, which starts empty, gains a binding whenever an object is stored, and loses
one whenever an entry is given up.  The map is what the journal comes to.

Giving up an entry drops its object.  If the object owns tokens, their entries may go as well, each
with its owner; nothing else is changed.

Main statements: `Agrees.actsAs`, that a registry acts as a map that holds its bindings, and
`actsAs_after`, that after a script this is the map of its journal.

## Sections

1. Bindings.
2. What a map answers.
3. Looking up.
4. Storing and giving up.
5. Registries that act as maps.
6. After a script.
-/

namespace Ferry

namespace Holdings

/-! ## §1 Bindings -/

/-- The object that a handle of a registry is bound to. -/
def bound (h : Holdings) (r : Nat) (handle : Handle) : Option Object :=
  ((h.registry r).borrow handle).toOption

theorem bound_eq_some_iff {h : Holdings} {r : Nat} {handle : Handle} {object : Object} :
    h.bound r handle = some object ↔ (h.registry r).borrow handle = .ok object := by
  unfold bound
  cases (h.registry r).borrow handle <;> simp [Except.toOption]

/-- A map holds the bindings of a registry. -/
def Agrees (h : Holdings) (r : Nat) (map : Handle → Option Object) : Prop :=
  ∀ handle object, map handle = some object ↔ (h.registry r).borrow handle = .ok object

/-- One binding of one registry is exchanged; all others stay. -/
def Rebinds (h h' : Holdings) (r : Nat) (handle : Handle) (value : Option Object) : Prop :=
  ∀ r' other, h'.bound r' other = if r' = r ∧ other = handle then value else h.bound r' other

theorem bound_congr {h h' : Holdings} (hregistries : h'.registries = h.registries) :
    h'.bound = h.bound := by
  funext r handle
  rw [bound, bound, registry_eq hregistries]

/-- A binding that was added and removed again leaves the registries as they were. -/
theorem Rebinds.back {h h' h'' : Holdings} {r : Nat} {handle : Handle} {value : Option Object}
    (hadded : Rebinds h h' r handle value) (hunbound : h.bound r handle = none)
    (hremoved : Rebinds h' h'' r handle none) : h''.bound = h.bound := by
  funext r' other
  rw [hremoved, hadded]
  split
  · next hsame =>
    obtain ⟨rfl, rfl⟩ := hsame
    exact hunbound.symm
  · rfl

theorem rebinds_of_borrow {h h' : Holdings} {r : Nat} {handle : Handle} {value : Option Object}
    (hself : ∀ found, (h'.registry r).borrow handle = .ok found ↔ value = some found)
    (hothers : ∀ r' other found, ¬(r' = r ∧ other = handle) →
      ((h'.registry r').borrow other = .ok found ↔ (h.registry r').borrow other = .ok found)) :
    Rebinds h h' r handle value := by
  intro r' other
  refine Option.ext fun found => ?_
  rw [bound_eq_some_iff]
  split
  -- This is the binding that is exchanged.
  · rename_i hsame
    obtain ⟨rfl, rfl⟩ := hsame
    exact hself found
  · rename_i hne
    rw [hothers r' other found hne, bound_eq_some_iff]

/-! ## §2 What a map answers -/

/-- What a registry answers that holds the bindings of a map.  A handle of another registry is
foreign; one of this registry that is unbound is stale. -/
def answer (identity : UInt64) (map : Handle → Option Object) (handle : Handle) :
    Except Fault Object :=
  if handle.registry ≠ identity then .error (.foreignRegistry identity handle.registry)
  else
    match map handle with
    | some object => .ok object
    | none => .error (.stale handle.slot handle.nonce)

/-- An answer that must be of a type. -/
def answerAs (h : Holdings) (type : ObjectType) : Except Fault Object → Except Fault Object
  | .ok object => if h.hasType type object then .ok object else .error (.typeMismatch type)
  | .error fault => .error fault

variable {h : Holdings} {r : Nat} {map : Handle → Option Object}

theorem Agrees.borrow_eq (hagrees : h.Agrees r map) (handle : Handle) :
    (h.registry r).borrow handle = answer (h.registry r).identity map handle := by
  unfold answer
  by_cases hown : handle.registry = (h.registry r).identity
  · rw [if_neg (not_not.mpr hown)]
    cases hmap : map handle with
    | some object => exact (hagrees handle object).mp hmap
    | none =>
      -- Were the entry live, the map would bind the handle.
      refine Registry.borrow_of_dead hown fun object hborrow => ?_
      rw [(hagrees handle object).mpr hborrow] at hmap
      cases hmap
  -- A foreign handle is not looked up at all.
  · rw [if_pos hown, Registry.borrow_foreign hown]

theorem Agrees.borrowIf_eq (hagrees : h.Agrees r map) (type : ObjectType) (handle : Handle) :
    (h.registry r).borrowIf (h.hasType type) (.typeMismatch type) handle
      = h.answerAs type (answer (h.registry r).identity map handle) := by
  rw [← hagrees.borrow_eq handle]
  unfold Registry.borrowIf
  cases (h.registry r).borrow handle <;> rfl

/-! ## §3 Looking up -/

theorem lend_snd (h : Holdings) (result : Except Fault Object) : (h.lend result).2 = result := by
  cases result <;> rfl

theorem lend_registries (h : Holdings) (result : Except Fault Object) :
    (h.lend result).1.registries = h.registries := by
  cases result with
  | error fault => rfl
  | ok object => cases object <;> rfl

theorem contains_eq (h : Holdings) (r : Nat) (handle : Handle) :
    h.contains r handle = (h.bound r handle).isSome := by
  unfold contains Registry.contains bound
  cases (h.registry r).borrow handle <;> rfl

/-! ## §4 Storing and giving up -/

/-- Storing adds just one binding, of a handle that was unbound. -/
theorem store_rebinds (hr : r < h.registries.size) (htidy : (h.registry r).Tidy) (object : Object)
    (hslots : ((h.store r object).1.registry r).slots.size ≤ 2 ^ 64) :
    h.bound r (h.store r object).2 = none ∧
      Rebinds h (h.store r object).1 r (h.store r object).2 (some object) := by
  obtain ⟨index, hstored⟩ := Registry.store_stored htidy object
  simp only [store, registry_setRegistry_self hr] at hslots
  have hborrow := borrow_stored hr hstored hslots
  have hunbound := hstored.borrow_before hslots
  refine ⟨?_, rebinds_of_borrow (fun found => ?_) fun r' other found hne => ?_⟩
  · refine Option.eq_none_iff_forall_ne_some.mpr fun found hbound => ?_
    exact hunbound found (bound_eq_some_iff.mp hbound)
  · refine (hborrow r _ found).trans ⟨?_, ?_⟩
    · rintro (⟨_, _, rfl⟩ | hbound)
      · rfl
      · exact absurd hbound (hunbound found)
    · intro heq
      cases heq
      exact Or.inl ⟨rfl, rfl, rfl⟩
  · refine (hborrow r' other found).trans ⟨?_, Or.inr⟩
    rintro (⟨rfl, rfl, _⟩ | hbound)
    · exact absurd ⟨rfl, rfl⟩ hne
    · exact hbound

/-- Storing makes a handle that was never issued. -/
theorem store_fresh (hr : r < h.registries.size) (htidy : (h.registry r).Tidy)
    (hfaithful : (h.registry r).Faithful) (object : Object)
    (hrange : (h.store r object).1.InRange) : (h.store r object).2 ∉ (h.registry r).issued := by
  obtain ⟨index, hstored⟩ := Registry.store_stored htidy object
  exact hstored.not_mem_issued (inRange_of_setRegistry hr hrange) hfaithful

/-- Fetching returns what is bound and removes just this binding. -/
theorem fetch_rebinds (htidy : (h.registry r).Tidy) {handle : Handle} {object : Object}
    (hborrow : (h.registry r).borrow handle = .ok object) :
    (h.fetch r handle).2 = .ok object ∧ Rebinds h (h.fetch r handle).1 r handle none := by
  have hfetch := (Registry.fetch_eq_ok_iff _ _ _ _).mpr ⟨hborrow, rfl⟩
  obtain ⟨hr, hvacated⟩ := vacated_of_fetch htidy hfetch
  have hiff := borrow_vacated hr hvacated
  rw [fetch, hfetch]
  refine ⟨rfl, rebinds_of_borrow (fun found => ?_) fun r' other found hne => ?_⟩
  · refine (hiff r handle found).trans ⟨fun hbound => ?_, fun heq => ?_⟩
    · exact absurd ⟨rfl, rfl⟩ hbound.1
    · cases heq
  · exact (hiff r' other found).trans ⟨And.right, fun hbound => ⟨hne, hbound⟩⟩

theorem fetch_of_error {handle : Handle} {fault : Fault}
    (hborrow : (h.registry r).borrow handle = .error fault) :
    h.fetch r handle = (h, .error fault) := by
  simp only [fetch, Registry.fetch, hborrow, handOver]

/-- Fetching an object of a type is fetching it, unless its type is another. -/
theorem fetchAs_eq (h : Holdings) (r : Nat) (type : ObjectType) (handle : Handle) :
    h.fetchAs r type handle
      = match h.answerAs type ((h.registry r).borrow handle) with
        | .ok _ => h.fetch r handle
        | .error fault => (h, .error fault) := by
  simp only [fetchAs, fetch, Registry.fetchIf, Registry.fetch, Registry.borrowIf]
  cases (h.registry r).borrow handle with
  | error fault => rfl
  | ok object =>
    simp only [answerAs]
    cases h.hasType type object <;> rfl

/-- Releasing is fetching and dropping what was fetched. -/
theorem release_of_borrow {handle : Handle} {object : Object}
    (hborrow : (h.registry r).borrow handle = .ok object) :
    h.release r handle = ((h.fetch r handle).1.dropObject object, .ok ()) := by
  simp only [release, fetch, Registry.fetch, hborrow, handOver]

theorem release_of_error {handle : Handle} {fault : Fault}
    (hborrow : (h.registry r).borrow handle = .error fault) :
    h.release r handle = (h, .error fault) := by
  rw [release, fetch_of_error hborrow]

/-- An object is a status that holds owners. -/
def OwnsTokens (h : Holdings) (object : Object) : Prop :=
  ∃ ref status o, object = .item ref ∧ h.items.content? ref = some (.status status) ∧
    .owner o ∈ status.shares

/-- Dropping an object that owns no tokens leaves the registries alone. -/
theorem dropObject_registries {object : Object} (hplain : ¬h.OwnsTokens object) :
    (h.dropObject object).registries = h.registries := by
  unfold dropObject
  rw [releaseAll_cons]
  cases object with
  | exception e =>
    show (releaseAll (h.settle _).1 ([] ++ [])).registries = _
    rw [List.nil_append, releaseAll_nil]
    rfl
  | item ref =>
    -- The item is kept by others, or it holds no owner that could go with it.
    have hnone : departing (h.items.release ref).2 = [] := by
      cases hgone : (h.items.release ref).2 with
      | none => rfl
      | some item =>
        obtain ⟨hcontent, _⟩ := Pool.release_of_snd hgone
        refine List.eq_nil_iff_forall_not_mem.mpr fun s hs => ?_
        cases item with
        | number _ | text _ | bytes _ => cases hs
        | status status =>
          obtain ⟨o, _, rfl⟩ := List.mem_map.mp hs
          exact hplain ⟨ref, status, o, rfl, hcontent, hs⟩
    show (releaseAll (h.settle _).1 (departing _ ++ [])).registries = _
    rw [hnone, List.nil_append, releaseAll_nil]
    rfl

theorem tidy_fetch (htidy : ∀ r, (h.registry r).Tidy) {handle : Handle} {object : Object}
    (hborrow : (h.registry r).borrow handle = .ok object) (r' : Nat) :
    ((h.fetch r handle).1.registry r').Tidy := by
  have hfetch := (Registry.fetch_eq_ok_iff _ _ _ _).mpr ⟨hborrow, rfl⟩
  obtain ⟨_, hvacated⟩ := vacated_of_fetch (htidy r) hfetch
  rw [Holdings.fetch, hfetch]
  exact Account.tidy_setRegistry htidy hvacated.tidy r'

/-- Releasing removes one binding, and then drops the object, with which other entries only go that
it owns. -/
theorem release_rebinds (htidy : ∀ r, (h.registry r).Tidy) {handle : Handle} {object : Object}
    (hborrow : (h.registry r).borrow handle = .ok object) :
    ∃ middle, Rebinds h middle r handle none ∧
      h.release r handle = (middle.dropObject object, .ok ()) ∧
      Frees middle (middle.dropObject object) ∧
      (¬middle.OwnsTokens object →
        (middle.dropObject object).registries = middle.registries) := by
  obtain ⟨_, hrebinds⟩ := fetch_rebinds (htidy r) hborrow
  have hfrees := releaseAll_frees (tidy_fetch htidy hborrow) [.object object]
  exact ⟨(h.fetch r handle).1, hrebinds, release_of_borrow hborrow, hfrees, dropObject_registries⟩

/-! ## §5 Registries that act as maps -/

/-- Every operation of a registry comes to what a map answers, and to the exchange of one binding
where it stores or gives up. -/
structure ActsAs (h : Holdings) (r : Nat) (map : Handle → Option Object) : Prop where
  bound_eq : h.bound r = map
  /-- Only handles of the registry are bound. -/
  own : ∀ handle object, map handle = some object → handle.registry = (h.registry r).identity
  contains : ∀ handle, h.contains r handle = (map handle).isSome
  validate : ∀ handle,
    h.validate r handle = (answer (h.registry r).identity map handle).map fun _ => ()
  decode : ∀ bytes handle, Token.parse bytes = .ok handle →
    h.decode r bytes = (answer (h.registry r).identity map handle).map fun _ => handle
  decode_encode : ∀ handle, h.decode r (Token.encode handle)
    = (answer (h.registry r).identity map handle).map fun _ => handle
  borrow : ∀ handle, (h.borrow r handle).2 = answer (h.registry r).identity map handle ∧
    (h.borrow r handle).1.registries = h.registries
  borrowAs : ∀ type handle,
    (h.borrowAs r type handle).2 = h.answerAs type (answer (h.registry r).identity map handle) ∧
      (h.borrowAs r type handle).1.registries = h.registries
  store : ∀ object, (h.store r object).1.InRange →
    (h.store r object).2 ∉ (h.registry r).issued ∧
      Rebinds h (h.store r object).1 r (h.store r object).2 (some object)
  fetch : ∀ handle object, answer (h.registry r).identity map handle = .ok object →
    (h.fetch r handle).2 = .ok object ∧ Rebinds h (h.fetch r handle).1 r handle none
  fetchAs : ∀ type handle object,
    h.answerAs type (answer (h.registry r).identity map handle) = .ok object →
    (h.fetchAs r type handle).2 = .ok object ∧ Rebinds h (h.fetchAs r type handle).1 r handle none
  /-- The object that was bound is dropped, which other entries only go with that it owns. -/
  release : ∀ handle object, answer (h.registry r).identity map handle = .ok object →
    ∃ middle, Rebinds h middle r handle none ∧
      h.release r handle = (middle.dropObject object, .ok ()) ∧
      Frees middle (middle.dropObject object) ∧
      (¬middle.OwnsTokens object →
        (middle.dropObject object).registries = middle.registries)
  /-- A call that fails changes nothing. -/
  failed : ∀ handle fault, answer (h.registry r).identity map handle = .error fault →
    h.borrow r handle = (h, .error fault) ∧ h.fetch r handle = (h, .error fault) ∧
      h.release r handle = (h, .error fault)
  failedAs : ∀ type handle fault,
    h.answerAs type (answer (h.registry r).identity map handle) = .error fault →
    h.borrowAs r type handle = (h, .error fault) ∧ h.fetchAs r type handle = (h, .error fault)

/-- What passes the test of its type is what was answered. -/
theorem answerAs_eq_ok {type : ObjectType} {found : Except Fault Object} {object : Object}
    (hfound : h.answerAs type found = .ok object) : found = .ok object := by
  cases found with
  | error fault => cases hfound
  | ok other =>
    simp only [answerAs] at hfound
    split at hfound
    · exact hfound
    · cases hfound

theorem Agrees.actsAs (hagrees : h.Agrees r map) (hr : r < h.registries.size)
    (htidy : ∀ r, (h.registry r).Tidy) (hfaithful : (h.registry r).Faithful) :
    h.ActsAs r map where
  bound_eq := by
    funext handle
    refine Option.ext fun object => ?_
    rw [bound_eq_some_iff, hagrees]
  own handle object hbound :=
    ((Registry.borrow_eq_ok_iff _ _ _).mp ((hagrees handle object).mp hbound)).1
  contains handle := by
    rw [contains_eq]
    congr 1
    refine Option.ext fun object => ?_
    rw [bound_eq_some_iff, hagrees]
  validate handle := by
    rw [← hagrees.borrow_eq]
    rfl
  decode bytes handle hparse := by
    rw [decode_of_parse h r hparse, hagrees.borrow_eq]
  decode_encode handle := by
    rw [decode_of_parse h r (Token.parse_encode handle), hagrees.borrow_eq]
  borrow handle := by
    rw [← hagrees.borrow_eq]
    exact ⟨lend_snd h _, lend_registries h _⟩
  borrowAs type handle := by
    rw [← hagrees.borrowIf_eq]
    exact ⟨lend_snd h _, lend_registries h _⟩
  store object hrange := ⟨store_fresh hr (htidy r) hfaithful object hrange,
    (store_rebinds hr (htidy r) object (hrange r).slots_le).2⟩
  fetch handle object hanswer := by
    rw [← hagrees.borrow_eq] at hanswer
    exact fetch_rebinds (htidy r) hanswer
  fetchAs type handle object hanswer := by
    rw [← hagrees.borrow_eq] at hanswer
    rw [fetchAs_eq, hanswer]
    exact fetch_rebinds (htidy r) (answerAs_eq_ok hanswer)
  release handle object hanswer := by
    rw [← hagrees.borrow_eq] at hanswer
    exact release_rebinds htidy hanswer
  failed handle fault hanswer := by
    rw [← hagrees.borrow_eq] at hanswer
    refine ⟨?_, fetch_of_error hanswer, release_of_error hanswer⟩
    rw [Holdings.borrow, hanswer]
    exact lend_error h fault
  failedAs type handle fault hanswer := by
    refine ⟨?_, ?_⟩
    · rw [Holdings.borrowAs, hagrees.borrowIf_eq, hanswer]
      exact lend_error h fault
    · rw [fetchAs_eq, hagrees.borrow_eq, hanswer]

end Holdings

/-! ## §6 After a script -/

namespace Script.Session

open Account

/-- A handle that was given up stays unbound. -/
theorem bound_of_released {a a' : Account} (hrun : Run a a') (ha : a.Consistent)
    (hfaithful : ∀ r, (a'.holdings.registry r).Faithful) {r : Nat} {handle : Handle}
    (hreleased : handle ∈ (a.holdings.registry r).released) :
    a'.holdings.bound r handle = none := by
  -- What was given up stays in the journal.
  have hlater := (hrun.extends ha r).released_subset hreleased
  refine Option.eq_none_iff_forall_ne_some.mpr fun object hbound => ?_
  have hborrow := Holdings.bound_eq_some_iff.mp hbound
  exact (((hfaithful r).borrow_iff handle object).mp hborrow).2 hlater

/-- In every state that a script leads to, a registry acts as the map that its journal comes to; and
a handle that was given up is unbound in every later state. -/
theorem actsAs_after (identities : List UInt64) (bridges : List Bridge) (commands : List Command)
    (inRange : ((start identities bridges).after commands).holdings.InRange) (r : Nat)
    (exists_r : r < identities.length) :
    ((start identities bridges).after commands).holdings.ActsAs r
        (Registry.bindings
          (((start identities bridges).after commands).holdings.registry r).journal) ∧
      ∀ more, ((start identities bridges).after (commands ++ more)).holdings.InRange →
        ∀ handle ∈ (((start identities bridges).after commands).holdings.registry r).released,
          ((start identities bridges).after (commands ++ more)).holdings.bound r handle = none := by
  have hstart := start_consistent identities bridges
  have hrun := after_run hstart commands
  have hconsistent := after_consistent identities bridges commands
  have hfaithful := (after_exclusive identities bridges commands inRange).faithful
  refine ⟨?_, fun more hrange handle hreleased => ?_⟩
  · have hagrees : ((start identities bridges).after commands).holdings.Agrees r _ :=
      (hfaithful r).bindings_iff
    refine hagrees.actsAs ?_ hconsistent.tidy (hfaithful r)
    have hsize := hrun.size_eq
    simp only [account, start, Holdings.start, List.size_toArray, List.length_map] at hsize
    exact hsize ▸ exists_r
  · have hlater := (after_exclusive identities bridges (commands ++ more) hrange).faithful
    -- The longer script goes on from where the shorter one ended.
    rw [after_append] at hlater ⊢
    exact bound_of_released (after_run hconsistent more) hconsistent hlater hreleased

/-- The slot of the entry that was given up is in use again; its old handle stays unbound. -/
theorem actsAs_after_nested :
    ((start [7, 9] []).after nested).holdings.InRange ∧ 0 < ([7, 9] : List UInt64).length ∧
      (((start [7, 9] []).after nested).holdings.fetch 0 ⟨7, 1, 2⟩).2 = .ok (.item ⟨0⟩) ∧
      ((start [7, 9] []).after nested).holdings.fetch 0 ⟨7, 1, 1⟩
        = (((start [7, 9] []).after nested).holdings, .error (.stale 1 1)) ∧
      ((start [7, 9] []).after (nested ++ [.object (.mint "inner" "p" 0)])).holdings.bound 0
        ⟨7, 1, 1⟩ = none := by
  have inRange : ((start [7, 9] []).after nested).holdings.InRange :=
    Holdings.InRange.of_short (by decide +kernel)
  have hmore : ((start [7, 9] []).after
      (nested ++ [.object (.mint "inner" "p" 0)])).holdings.InRange :=
    Holdings.InRange.of_short (by decide +kernel)
  obtain ⟨hacts, hlater⟩ := actsAs_after [7, 9] [] nested inRange 0 (by decide)
  refine ⟨inRange, by decide, ?_, ?_, hlater _ hmore ⟨7, 1, 1⟩ (by decide +kernel)⟩
  · exact (hacts.fetch ⟨7, 1, 2⟩ (.item ⟨0⟩) (by decide +kernel)).1
  · exact (hacts.failed ⟨7, 1, 1⟩ (.stale 1 1) (by decide +kernel)).2.1

end Script.Session

end Ferry
