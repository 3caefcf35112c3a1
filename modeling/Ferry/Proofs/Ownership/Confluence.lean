import Ferry.Holdings.Entry
import Ferry.Proofs.Ownership.Counts
import Ferry.Proofs.WorkList

/-!
# Letting go in any order

Giving up shares sets off cascades that run into each other: an owner gives up an entry that a
handle may give up as well, the entry's object may be a status whose owners are shared, and so on.
It makes no difference in which order this is done, save for two things: the order in which slots
become free, and which of two ways an entry goes.

The reason is that any two steps may be exchanged.  The pools only count, and an entry is given up
by whoever comes first.

Main statements: `Holdings.carryOut_perm`, that tasks may be carried out in any order, and
`Holdings.carryOut_append`.

## Sections

1. Pools.
2. Exceptions.
3. Registries.
4. Holdings that are alike.
5. Duties.
6. Tasks.
7. Any order.
-/

namespace Ferry

/-! ## §1 Pools -/

namespace Pool

variable {role : Role} {α : Type}

@[simp] theorem size_release (pool : Pool role α) (ref : Ref role) :
    (pool.release ref).1.cells.size = pool.cells.size := by
  unfold release
  split
  · rfl
  · split <;> simp [modifyCell]

/-- A pool is what its cells are. -/
theorem ext_cell? {pool other : Pool role α} (hsize : pool.cells.size = other.cells.size)
    (hcell : ∀ ref, pool.cell? ref = other.cell? ref) : pool = other := by
  refine congrArg Pool.mk (Array.ext hsize fun i hi hi' => ?_)
  have hplace := hcell ⟨i⟩
  simp only [cell?, Array.getElem?_eq_getElem hi, Array.getElem?_eq_getElem hi'] at hplace
  cases hfirst : pool.cells[i] <;> cases hsecond : other.cells[i] <;> simp_all

/-- Letting go of one value does not matter to another. -/
theorem release_snd_release {pool : Pool role α} {ref other : Ref role} (hne : other ≠ ref) :
    ((pool.release ref).1.release other).2 = (pool.release other).2 := by
  rw [release_snd, release_snd, cell?_release_of_ne pool hne]

/-- Two holders may go in either order. -/
theorem release_comm (pool : Pool role α) (ref other : Ref role) :
    ((pool.release ref).1.release other).1 = ((pool.release other).1.release ref).1 := by
  by_cases hsame : ref = other
  · rw [hsame]
  · apply ext_cell?
    · simp
    · intro place
      by_cases hplace : place = ref
      · subst hplace
        rw [cell?_release_of_ne _ hsame, cell?_release_self, cell?_release_self,
          cell?_release_of_ne _ hsame]
      · by_cases hplace' : place = other
        · subst hplace'
          rw [cell?_release_self, cell?_release_of_ne _ hplace, cell?_release_of_ne _ hplace,
            cell?_release_self]
        · simp only [cell?_release_of_ne _ hplace, cell?_release_of_ne _ hplace']

end Pool

/-! ## §2 Exceptions -/

namespace ExceptionGraph

/-- Letting go of exceptions, as a work list. -/
def dropping : Process ExceptionGraph ExceptionRef where
  step g e := ((g.release e).1, departing (g.release e).2)
  run := dropAll
  weight g pending := g.weight Node.linkCount + pending.length
  Alike := Eq

theorem dropping_commutes : dropping.Commutes where
  nil := dropAll_nil
  cons := dropAll_cons
  less g e rest := by
    have hbalance := Pool.weight_release Node.linkCount g e
    have hmoved := length_departing (g.release e).2
    simp only [dropping, List.length_append, List.length_cons]
    omega
  weight_perm g _ _ hperm := by
    simp only [dropping, hperm.length_eq]
  alike := ⟨Eq.refl, Eq.symm, Eq.trans⟩
  step_alike hsame _ := by
    cases hsame
    exact ⟨rfl, rfl⟩
  exchange g e x := by
    by_cases hsame : e = x
    · cases hsame
      exact ⟨rfl, List.Perm.refl _⟩
    · refine ⟨Pool.release_comm g e x, ?_⟩
      simp only [dropping, Pool.release_snd_release hsame,
        Pool.release_snd_release (Ne.symm hsame)]
      exact List.perm_append_comm

/-- Exceptions may be let go in either order. -/
theorem drop_comm (g : ExceptionGraph) (e x : ExceptionRef) :
    drop (drop g e) x = drop (drop g x) e := by
  have hpairs : ∀ a b, drop (drop g a) b = dropAll g [a, b] := fun a b =>
    (dropping.run_append dropping_commutes.toRuns g [a] [b]).symm
  rw [hpairs, hpairs]
  exact Process.run_perm dropping_commutes rfl (List.Perm.swap x e [])

end ExceptionGraph

/-! ## §3 Registries -/

namespace Registry

variable {α : Type}

/-- Gives up the entry that a handle names, if it is live, and returns its object. -/
def giveUp (registry : Registry α) (handle : Handle) : Registry α × List α :=
  match registry.fetch handle with
  | .ok (after, object) => (after, [object])
  | .error _ => (registry, [])

/-- The registries differ at most in the order of their free slots and in their journals. -/
structure Alike (registry other : Registry α) : Prop where
  identity_eq : registry.identity = other.identity
  slots_eq : registry.slots = other.slots
  live_eq : registry.live = other.live

theorem Alike.borrow_eq {registry other : Registry α} (halike : Alike registry other)
    (handle : Handle) : registry.borrow handle = other.borrow handle := by
  simp only [borrow, entry?, halike.identity_eq, halike.slots_eq]

theorem Alike.vacateAt {registry other : Registry α} (halike : Alike registry other) (i : Nat) :
    Alike (registry.vacateAt i) (other.vacateAt i) where
  identity_eq := halike.identity_eq
  slots_eq := congrArg (Array.modify · i vacate) halike.slots_eq
  live_eq := congrArg (· - 1) halike.live_eq

theorem giveUp_of_ok {registry : Registry α} {handle : Handle} {object : α}
    (hborrow : registry.borrow handle = .ok object) :
    registry.giveUp handle = (registry.vacateAt handle.slot.toNat, [object]) := by
  simp only [giveUp, fetch, hborrow]

theorem giveUp_of_error {registry : Registry α} {handle : Handle} {fault : Fault}
    (hborrow : registry.borrow handle = .error fault) : registry.giveUp handle = (registry, []) := by
  simp only [giveUp, fetch, hborrow]

theorem Alike.giveUp {registry other : Registry α} (halike : Alike registry other)
    (handle : Handle) : Alike (registry.giveUp handle).1 (other.giveUp handle).1 ∧
      (registry.giveUp handle).2 = (other.giveUp handle).2 := by
  have hsame := halike.borrow_eq handle
  cases hborrow : registry.borrow handle with
  | error fault =>
    rw [giveUp_of_error hborrow, giveUp_of_error (hsame ▸ hborrow)]
    exact ⟨halike, rfl⟩
  | ok object =>
    rw [giveUp_of_ok hborrow, giveUp_of_ok (hsame ▸ hborrow)]
    exact ⟨halike.vacateAt _, rfl⟩

/-- An entry in another slot stays as it is. -/
theorem borrow_vacateAt_of_ne (registry : Registry α) {handle : Handle} {i : Nat}
    (hne : handle.slot.toNat ≠ i) : (registry.vacateAt i).borrow handle = registry.borrow handle := by
  have hslot := getElem?_modify_of_ne registry.slots vacate hne
  simp only [borrow, entry?, vacateAt, hslot]

/-- No entry is left in a slot that was given up. -/
theorem giveUp_vacateAt_self (registry : Registry α) {handle : Handle} {i : Nat}
    (hslot : handle.slot.toNat = i) :
    (registry.vacateAt i).giveUp handle = (registry.vacateAt i, []) := by
  cases hborrow : (registry.vacateAt i).borrow handle with
  | error fault => exact giveUp_of_error hborrow
  | ok object =>
    obtain ⟨_, hplace⟩ := (borrow_eq_ok_iff_slot _ _ _).mp hborrow
    rw [hslot] at hplace
    simp only [vacateAt, Array.getElem?_modify, if_true] at hplace
    obtain ⟨slot, _, hvacant⟩ := Option.map_eq_some_iff.mp hplace
    simp [vacate] at hvacant

/-- A handle that names no entry names none later either. -/
theorem giveUp_giveUp_of_error {registry : Registry α} {handle : Handle} {fault : Fault}
    (hborrow : registry.borrow handle = .error fault) (other : Handle) :
    (registry.giveUp other).1.giveUp handle = ((registry.giveUp other).1, []) := by
  cases hother : registry.borrow other with
  | error fault' =>
    rw [giveUp_of_error hother]
    exact giveUp_of_error hborrow
  | ok object =>
    rw [giveUp_of_ok hother]
    by_cases hslot : handle.slot.toNat = other.slot.toNat
    · exact giveUp_vacateAt_self registry hslot
    · exact giveUp_of_error ((borrow_vacateAt_of_ne registry hslot).trans hborrow)

theorem vacateAt_comm (registry : Registry α) (i j : Nat) :
    Alike ((registry.vacateAt i).vacateAt j) ((registry.vacateAt j).vacateAt i) where
  identity_eq := rfl
  slots_eq := by
    refine Array.ext_getElem? fun place => ?_
    simp only [vacateAt, Array.getElem?_modify]
    split <;> split <;> rfl
  live_eq := rfl

/-- Two handles may be given up in either order: the same entries go, and the same objects come
out. -/
theorem giveUp_exchange (registry : Registry α) (first second : Handle) :
    Alike ((registry.giveUp first).1.giveUp second).1 ((registry.giveUp second).1.giveUp first).1 ∧
      (((registry.giveUp first).1.giveUp second).2 ++ (registry.giveUp first).2).Perm
        (((registry.giveUp second).1.giveUp first).2 ++ (registry.giveUp second).2) := by
  cases hfirst : registry.borrow first with
  | error fault =>
    rw [giveUp_giveUp_of_error hfirst, giveUp_of_error hfirst, List.append_nil]
    exact ⟨⟨rfl, rfl, rfl⟩, List.Perm.refl _⟩
  | ok object =>
    cases hsecond : registry.borrow second with
    | error fault =>
      rw [giveUp_giveUp_of_error hsecond, giveUp_of_error hsecond, List.append_nil]
      exact ⟨⟨rfl, rfl, rfl⟩, List.Perm.refl _⟩
    | ok other =>
      rw [giveUp_of_ok hfirst, giveUp_of_ok hsecond]
      by_cases hslot : second.slot.toNat = first.slot.toNat
      · -- Both name the one entry of their slot, and whoever comes first gives it up.
        rw [giveUp_vacateAt_self registry hslot, giveUp_vacateAt_self registry hslot.symm, hslot]
        obtain ⟨_, hplace⟩ := (borrow_eq_ok_iff_slot _ _ _).mp hfirst
        obtain ⟨_, hplace'⟩ := (borrow_eq_ok_iff_slot _ _ _).mp hsecond
        simp only [hslot, hplace, Option.some.injEq, Slot.mk.injEq] at hplace'
        obtain ⟨_, rfl⟩ := hplace'
        exact ⟨⟨rfl, rfl, rfl⟩, List.Perm.refl _⟩
      · rw [giveUp_of_ok ((borrow_vacateAt_of_ne registry hslot).trans hsecond),
          giveUp_of_ok ((borrow_vacateAt_of_ne registry (Ne.symm hslot)).trans hfirst)]
        exact ⟨vacateAt_comm registry _ _, List.perm_append_comm⟩

end Registry

namespace Holdings

/-! ## §4 Holdings that are alike -/

/-- The holdings differ at most in the order of free slots and in the journals of registries. -/
structure Alike (h h' : Holdings) : Prop where
  size_eq : h.registries.size = h'.registries.size
  registry : ∀ r, (h.registry r).Alike (h'.registry r)
  owners_eq : h.owners = h'.owners
  items_eq : h.items = h'.items
  exceptions_eq : h.exceptions = h'.exceptions
  tallies_eq : h.tallies = h'.tallies

theorem Alike.refl (h : Holdings) : Alike h h :=
  ⟨rfl, fun _ => ⟨rfl, rfl, rfl⟩, rfl, rfl, rfl, rfl⟩

theorem alike_equivalence : Equivalence Alike where
  refl := Alike.refl
  symm hfirst :=
    { size_eq := hfirst.size_eq.symm
      registry := fun r => ⟨(hfirst.registry r).identity_eq.symm, (hfirst.registry r).slots_eq.symm,
        (hfirst.registry r).live_eq.symm⟩
      owners_eq := hfirst.owners_eq.symm
      items_eq := hfirst.items_eq.symm
      exceptions_eq := hfirst.exceptions_eq.symm
      tallies_eq := hfirst.tallies_eq.symm }
  trans hfirst hsecond :=
    { size_eq := hfirst.size_eq.trans hsecond.size_eq
      registry := fun r =>
        ⟨(hfirst.registry r).identity_eq.trans (hsecond.registry r).identity_eq,
          (hfirst.registry r).slots_eq.trans (hsecond.registry r).slots_eq,
          (hfirst.registry r).live_eq.trans (hsecond.registry r).live_eq⟩
      owners_eq := hfirst.owners_eq.trans hsecond.owners_eq
      items_eq := hfirst.items_eq.trans hsecond.items_eq
      exceptions_eq := hfirst.exceptions_eq.trans hsecond.exceptions_eq
      tallies_eq := hfirst.tallies_eq.trans hsecond.tallies_eq }

/-- The registries and tallies of some holdings beside the pools of others. -/
def withPools (h pools : Holdings) : Holdings :=
  { h with owners := pools.owners, items := pools.items, exceptions := pools.exceptions }

theorem Alike.withPools {h h' : Holdings} (halike : Alike h h') (pools : Holdings) :
    Alike (h.withPools pools) (h'.withPools pools) :=
  ⟨halike.size_eq, halike.registry, rfl, rfl, rfl, halike.tallies_eq⟩

/-! ## §5 Duties -/

/-- What a duty comes to does not depend on the pools. -/
theorem discharge_withPools (h pools : Holdings) (duty : Option Duty) :
    (h.withPools pools).discharge duty
      = ((h.discharge duty).1.withPools pools, (h.discharge duty).2) := by
  cases duty with
  | none => rfl
  | some duty =>
    cases duty with
    | tally counter => rfl
    | entry r handle =>
      have hregistry : (h.withPools pools).registry r = h.registry r := rfl
      simp only [discharge, hregistry]
      cases (h.registry r).fetch handle <;> rfl

/-- An entry is given up in its registry, and the others are left alone. -/
theorem registry_discharge_entry (h : Holdings) (r : Nat) (handle : Handle) (other : Nat) :
    (h.discharge (some (.entry r handle))).1.registry other
      = if other = r then ((h.registry r).giveUp handle).1 else h.registry other := by
  simp only [discharge, Registry.giveUp]
  cases hfetch : (h.registry r).fetch handle with
  | error fault =>
    by_cases hother : other = r
    · rw [if_pos hother, hother]
    · rw [if_neg hother]
  | ok found =>
    have hr : r < h.registries.size := by
      obtain ⟨hborrow, _⟩ := (Registry.fetch_eq_ok_iff _ _ _ _).mp hfetch
      exact lt_of_borrow hborrow
    by_cases hother : other = r
    · subst hother
      rw [if_pos rfl]
      exact registry_setRegistry_self hr _
    · rw [if_neg hother]
      exact registry_setRegistry_of_ne h _ hother

theorem discharge_entry_snd (h : Holdings) (r : Nat) (handle : Handle) :
    (h.discharge (some (.entry r handle))).2
      = ((h.registry r).giveUp handle).2.map Share.object := by
  simp only [discharge, Registry.giveUp]
  cases (h.registry r).fetch handle <;> rfl

/-- Alike holdings do a duty alike. -/
theorem Alike.discharge {h h' : Holdings} (halike : Alike h h') (duty : Option Duty) :
    Alike (h.discharge duty).1 (h'.discharge duty).1 ∧
      (h.discharge duty).2 = (h'.discharge duty).2 := by
  obtain ⟨howners, hitems, hexceptions⟩ := discharge_pools h duty
  obtain ⟨howners', hitems', hexceptions'⟩ := discharge_pools h' duty
  cases duty with
  | none => exact ⟨halike, rfl⟩
  | some duty =>
    cases duty with
    | tally counter =>
      exact ⟨{ halike with tallies_eq := congrArg (Array.modify · counter _) halike.tallies_eq },
        rfl⟩
    | entry r handle =>
      obtain ⟨hgiven, hfreed⟩ := (halike.registry r).giveUp handle
      refine ⟨⟨?_, fun other => ?_, ?_, ?_, ?_, ?_⟩, ?_⟩
      · rw [size_discharge, size_discharge]
        exact halike.size_eq
      · rw [registry_discharge_entry, registry_discharge_entry]
        split
        · exact hgiven
        · exact halike.registry other
      · rw [howners, howners', halike.owners_eq]
      · rw [hitems, hitems', halike.items_eq]
      · rw [hexceptions, hexceptions', halike.exceptions_eq]
      · rw [tallies_discharge_entry, tallies_discharge_entry, halike.tallies_eq]
      · rw [discharge_entry_snd, discharge_entry_snd, hfreed]

/-- Two duties come to the same in either order. -/
def DutiesExchange (h : Holdings) (first second : Option Duty) : Prop :=
  Alike ((h.discharge first).1.discharge second).1 ((h.discharge second).1.discharge first).1 ∧
    (((h.discharge first).1.discharge second).2 ++ (h.discharge first).2).Perm
      (((h.discharge second).1.discharge first).2 ++ (h.discharge second).2)

theorem DutiesExchange.symm {h : Holdings} {first second : Option Duty}
    (hexchange : DutiesExchange h first second) : DutiesExchange h second first :=
  ⟨alike_equivalence.symm hexchange.1, hexchange.2.symm⟩

theorem dutiesExchange_none (h : Holdings) (duty : Option Duty) :
    DutiesExchange h none duty := by
  refine ⟨Alike.refl _, ?_⟩
  simp [discharge]

theorem dutiesExchange_tally (h : Holdings) (counter : Nat) (duty : Duty) :
    DutiesExchange h (some (.tally counter)) (some duty) := by
  cases duty with
  | tally other =>
    have hcomm : (h.tallies.modify counter (· + 1)).modify other (· + 1)
        = (h.tallies.modify other (· + 1)).modify counter (· + 1) := by
      refine Array.ext_getElem? fun place => ?_
      simp only [Array.getElem?_modify]
      split <;> split <;> rfl
    exact ⟨⟨rfl, fun _ => ⟨rfl, rfl, rfl⟩, rfl, rfl, rfl, hcomm⟩, List.Perm.refl _⟩
  | entry r handle =>
    have hregistry : ∀ tallies, registry { h with tallies := tallies } r = h.registry r :=
      fun _ => rfl
    unfold DutiesExchange
    simp only [discharge, hregistry]
    cases (h.registry r).fetch handle with
    | error fault => exact ⟨Alike.refl _, List.Perm.refl _⟩
    | ok found => exact ⟨Alike.refl _, List.Perm.refl _⟩

theorem dutiesExchange_entry (h : Holdings) (r r' : Nat) (handle handle' : Handle) :
    DutiesExchange h (some (.entry r handle)) (some (.entry r' handle')) := by
  have hpools : ∀ (h : Holdings) duty, (h.discharge duty).1.owners = h.owners ∧
      (h.discharge duty).1.items = h.items ∧
      (h.discharge duty).1.exceptions = h.exceptions := discharge_pools
  refine ⟨⟨by simp, fun other => ?_, ?_, ?_, ?_, ?_⟩, ?_⟩
  · simp only [registry_discharge_entry]
    by_cases hsame : r = r'
    · subst hsame
      by_cases hother : other = r
      · simp only [hother, if_true]
        exact (Registry.giveUp_exchange (h.registry r) handle handle').1
      · simp only [hother, if_false]
        exact ⟨rfl, rfl, rfl⟩
    · -- The two registries are left alone by each other's duty.
      simp only [if_neg hsame, if_neg (Ne.symm hsame)]
      by_cases hother : other = r
      · rw [hother, if_neg hsame, if_pos rfl, if_pos rfl]
        exact ⟨rfl, rfl, rfl⟩
      · simp only [hother, if_false]
        exact ⟨rfl, rfl, rfl⟩
  · simp only [(hpools _ _).1]
  · simp only [(hpools _ _).2.1]
  · simp only [(hpools _ _).2.2]
  · simp only [tallies_discharge_entry]
  · simp only [discharge_entry_snd, registry_discharge_entry, ← List.map_append]
    apply List.Perm.map
    by_cases hsame : r = r'
    · subst hsame
      simp only [if_true]
      exact (Registry.giveUp_exchange (h.registry r) handle handle').2
    · simp only [if_neg hsame, if_neg (Ne.symm hsame)]
      exact List.perm_append_comm

theorem dutiesExchange (h : Holdings) (first second : Option Duty) :
    DutiesExchange h first second := by
  cases first with
  | none => exact dutiesExchange_none h second
  | some first =>
    cases second with
    | none => exact (dutiesExchange_none h (some first)).symm
    | some second =>
      cases first with
      | tally counter => exact dutiesExchange_tally h counter second
      | entry r handle =>
        cases second with
        | tally counter => exact (dutiesExchange_tally h counter (.entry r handle)).symm
        | entry r' handle' => exact dutiesExchange_entry h r r' handle handle'

end Holdings

/-! ## §6 Tasks -/

/-- Something that is let go. -/
inductive Task where
  /-- A share is given up. -/
  | share (s : Share)
  /-- The entry that a handle names is given up, if it is live. -/
  | entry (r : Nat) (handle : Handle)

namespace Holdings

/-- What a task does to the pools. -/
def poolsAfter (h : Holdings) : Task → Holdings
  | .share (.owner o) => { h with owners := (h.owners.release o).1 }
  | .share (.object (.item ref)) => { h with items := (h.items.release ref).1 }
  | .share (.object (.exception e)) => { h with exceptions := ExceptionGraph.drop h.exceptions e }
  | .entry _ _ => h

/-- The duty that a task calls for. -/
def dutyOf (h : Holdings) : Task → Option Duty
  | .share (.owner o) => (h.owners.release o).2
  | .share (.object _) => none
  | .entry r handle => some (.entry r handle)

/-- The shares that a task frees from an item. -/
def departingWith (h : Holdings) : Task → List Share
  | .share (.object (.item ref)) => departing (h.items.release ref).2
  | _ => []

/-- Does a task, and returns the tasks that this brings up. -/
def stepTask (h : Holdings) (task : Task) : Holdings × List Task :=
  let done := (h.poolsAfter task).discharge (h.dutyOf task)
  (done.1, (h.departingWith task ++ done.2).map Task.share)

/-- Carries out tasks in order, each with all that it brings up before the next. -/
def carryOut (h : Holdings) : List Task → Holdings
  | [] => h
  | .share s :: rest => (h.releaseAll [s]).carryOut rest
  | .entry r handle :: rest =>
    let given := h.discharge (some (.entry r handle))
    (given.1.releaseAll given.2).carryOut rest

theorem stepTask_share (h : Holdings) (s : Share) :
    h.stepTask (.share s) = ((h.settle s).1, (h.settle s).2.map Task.share) := by
  cases s with
  | owner o => rfl
  | item ref => simp [stepTask, poolsAfter, dutyOf, departingWith, discharge, settle]
  | exception e => rfl

theorem releaseAll_append (h : Holdings) (pending more : List Share) :
    h.releaseAll (pending ++ more) = (h.releaseAll pending).releaseAll more := by
  induction h, pending using releaseAll.induct with
  | case1 h => rw [List.nil_append, releaseAll_nil]
  | case2 h share rest settled ih =>
    rw [List.cons_append, releaseAll_cons, releaseAll_cons, ← List.append_assoc]
    exact ih

theorem carryOut_append (h : Holdings) (tasks more : List Task) :
    h.carryOut (tasks ++ more) = (h.carryOut tasks).carryOut more := by
  induction tasks generalizing h with
  | nil => rfl
  | cons task rest ih =>
    cases task with
    | share s => exact ih _
    | entry r handle => exact ih _

/-- Giving up shares one by one is giving up all of them. -/
theorem carryOut_shares (h : Holdings) (pending : List Share) :
    h.carryOut (pending.map Task.share) = h.releaseAll pending := by
  induction pending generalizing h with
  | nil => exact (releaseAll_nil h).symm
  | cons s rest ih =>
    have happend := releaseAll_append h [s] rest
    rw [List.singleton_append] at happend
    rw [happend]
    exact ih (h.releaseAll [s])

/-- Carrying out a task comes to doing it and carrying out what it brings up. -/
theorem carryOut_cons (h : Holdings) (task : Task) (rest : List Task) :
    h.carryOut (task :: rest) = (h.stepTask task).1.carryOut ((h.stepTask task).2 ++ rest) := by
  rw [carryOut_append]
  cases task with
  | share s =>
    rw [stepTask_share, carryOut_shares]
    simp only [carryOut, releaseAll_cons, List.append_nil]
  | entry r handle =>
    simp only [stepTask, carryOut_shares]
    rfl

end Holdings

/-- The order of a row does not matter to its total. -/
theorem sumOf_perm {α : Type} (w : α → Nat) {row more : List α} (hperm : row.Perm more) :
    sumOf w row = sumOf w more := by
  induction hperm with
  | nil => rfl
  | cons first _ ih => rw [sumOf_cons, sumOf_cons, ih]
  | swap first second rest =>
    simp only [sumOf_cons]
    omega
  | trans _ _ ihfirst ihsecond => exact ihfirst.trans ihsecond

/-- What a task may still set off. -/
def Task.weight : Task → Nat
  | share s => s.weight
  | entry _ _ => 2

namespace Holdings

/-! ## §7 Any order -/

/-- What tasks do to the pools may be done in either order. -/
theorem poolsAfter_comm (h : Holdings) (first second : Task) :
    (h.poolsAfter first).poolsAfter second = (h.poolsAfter second).poolsAfter first := by
  cases first with
  | entry r handle => rfl
  | share s =>
    cases second with
    | entry r handle => rfl
    | share s' =>
      cases s with
      | owner o =>
        cases s' with
        | owner o' => simp only [poolsAfter, Pool.release_comm h.owners o o']
        | item _ | exception _ => rfl
      | item ref =>
        cases s' with
        | item ref' => simp only [poolsAfter, Pool.release_comm h.items ref ref']
        | owner _ | exception _ => rfl
      | exception e =>
        cases s' with
        | exception e' => simp only [poolsAfter, ExceptionGraph.drop_comm h.exceptions e e']
        | owner _ | item _ => rfl

/-- The duty of a task stays the same when another task is done. -/
theorem dutyOf_poolsAfter (h : Holdings) {first second : Task} (hne : second ≠ first) :
    (h.poolsAfter first).dutyOf second = h.dutyOf second := by
  cases first with
  | entry r handle => rfl
  | share s =>
    cases second with
    | entry r handle => rfl
    | share s' =>
      cases s' with
      | item _ | exception _ => rfl
      | owner o' =>
        cases s with
        | item _ | exception _ => rfl
        | owner o =>
          apply Pool.release_snd_release
          intro hsame
          exact hne (by rw [hsame])

theorem departingWith_poolsAfter (h : Holdings) {first second : Task} (hne : second ≠ first) :
    (h.poolsAfter first).departingWith second = h.departingWith second := by
  cases first with
  | entry r handle => rfl
  | share s =>
    cases second with
    | entry r handle => rfl
    | share s' =>
      cases s' with
      | owner _ | exception _ => rfl
      | item ref' =>
        cases s with
        | owner _ | exception _ => rfl
        | item ref =>
          apply congrArg departing
          apply Pool.release_snd_release
          intro hsame
          exact hne (by rw [hsame])

theorem poolsAfter_eq_withPools (h : Holdings) (task : Task) :
    h.poolsAfter task = h.withPools (h.poolsAfter task) := by
  cases task with
  | entry r handle => rfl
  | share s =>
    cases s with
    | owner _ | item _ | exception _ => rfl

/-- A duty and what a task does to the pools leave each other alone. -/
theorem poolsAfter_discharge (h : Holdings) (duty : Option Duty) (task : Task) :
    (h.discharge duty).1.poolsAfter task = ((h.poolsAfter task).discharge duty).1 := by
  obtain ⟨howners, hitems, hexceptions⟩ := discharge_pools h duty
  rw [poolsAfter_eq_withPools h task, discharge_withPools]
  cases task with
  | entry r handle => simp [poolsAfter, withPools, ← howners, ← hitems, ← hexceptions]
  | share s =>
    cases s with
    | owner _ | item _ | exception _ =>
      simp [poolsAfter, withPools, howners, hitems, hexceptions]

@[simp] theorem dutyOf_discharge (h : Holdings) (duty : Option Duty) (task : Task) :
    (h.discharge duty).1.dutyOf task = h.dutyOf task := by
  obtain ⟨howners, _, _⟩ := discharge_pools h duty
  cases task with
  | entry r handle => rfl
  | share s =>
    cases s with
    | owner o => simp only [dutyOf, howners]
    | item _ | exception _ => rfl

@[simp] theorem departingWith_discharge (h : Holdings) (duty : Option Duty) (task : Task) :
    (h.discharge duty).1.departingWith task = h.departingWith task := by
  obtain ⟨_, hitems, _⟩ := discharge_pools h duty
  cases task with
  | entry r handle => rfl
  | share s =>
    cases s with
    | item ref => simp only [departingWith, hitems]
    | owner _ | exception _ => rfl

/-- What a duty frees does not depend on what tasks did to the pools. -/
theorem discharge_poolsAfter_snd (h : Holdings) (duty : Option Duty) (task : Task) :
    ((h.poolsAfter task).discharge duty).2 = (h.discharge duty).2 := by
  rw [poolsAfter_eq_withPools, discharge_withPools]

theorem stepTask_snd (h : Holdings) (task : Task) :
    (h.stepTask task).2
      = (h.departingWith task ++ (h.discharge (h.dutyOf task)).2).map Task.share := by
  simp only [stepTask, discharge_poolsAfter_snd]

/-- Two different tasks, one after the other. -/
theorem stepTask_stepTask (h : Holdings) {first second : Task} (hne : second ≠ first) :
    (h.stepTask first).1.stepTask second
      = (((((h.poolsAfter first).poolsAfter second).discharge (h.dutyOf first)).1.discharge
          (h.dutyOf second)).1,
        (h.departingWith second
          ++ ((((h.poolsAfter first).poolsAfter second).discharge (h.dutyOf first)).1.discharge
            (h.dutyOf second)).2).map Task.share) := by
  simp only [stepTask, poolsAfter_discharge, dutyOf_discharge, departingWith_discharge,
    dutyOf_poolsAfter h hne, departingWith_poolsAfter h hne]

/-- Alike holdings do a task alike. -/
theorem Alike.stepTask {h h' : Holdings} (halike : Alike h h') (task : Task) :
    Alike (h.stepTask task).1 (h'.stepTask task).1 ∧ (h.stepTask task).2 = (h'.stepTask task).2 := by
  have hpools : Alike (h.poolsAfter task) (h'.poolsAfter task) := by
    cases task with
    | entry r handle => exact halike
    | share s =>
      cases s with
      | owner o =>
        exact { halike with owners_eq := by simp only [poolsAfter, halike.owners_eq] }
      | item ref => exact { halike with items_eq := by simp only [poolsAfter, halike.items_eq] }
      | exception e =>
        exact { halike with exceptions_eq := by simp only [poolsAfter, halike.exceptions_eq] }
  have hduty : h.dutyOf task = h'.dutyOf task := by
    cases task with
    | entry r handle => rfl
    | share s => cases s <;> simp only [dutyOf, halike.owners_eq]
  have hdeparting : h.departingWith task = h'.departingWith task := by
    cases task with
    | entry r handle => rfl
    | share s => cases s <;> simp only [departingWith, halike.items_eq]
  obtain ⟨hdone, hfreed⟩ := hpools.discharge (h.dutyOf task)
  simp only [Holdings.stepTask, ← hduty, ← hdeparting]
  exact ⟨hdone, by rw [hfreed]⟩

/-- Letting go, as a work list. -/
def lettingGo : Process Holdings Task where
  step := stepTask
  run := carryOut
  weight h tasks := h.weight + sumOf Task.weight tasks
  Alike := Alike

theorem lettingGo_exchange (h : Holdings) (first second : Task) :
    lettingGo.Exchange h first second := by
  by_cases hsame : first = second
  · cases hsame
    exact ⟨Alike.refl _, List.Perm.refl _⟩
  · obtain ⟨halike, hfreed⟩ := dutiesExchange ((h.poolsAfter first).poolsAfter second)
      (h.dutyOf first) (h.dutyOf second)
    have hforth := stepTask_stepTask h (Ne.symm hsame)
    have hback := stepTask_stepTask h hsame
    rw [poolsAfter_comm h second first] at hback
    simp only [discharge_poolsAfter_snd] at hfreed
    refine ⟨?_, ?_⟩
    · show Alike ((h.stepTask first).1.stepTask second).1 ((h.stepTask second).1.stepTask first).1
      rw [hforth, hback]
      exact halike
    · show (((h.stepTask first).1.stepTask second).2 ++ (h.stepTask first).2).Perm
        (((h.stepTask second).1.stepTask first).2 ++ (h.stepTask second).2)
      rw [hforth, hback, stepTask_snd, stepTask_snd, ← List.map_append, ← List.map_append]
      apply List.Perm.map
      rw [List.perm_iff_count]
      intro s
      have hcount := hfreed.count_eq s
      simp only [List.count_append] at hcount ⊢
      omega

theorem sumOf_weight_shares (shares : List Share) :
    sumOf Task.weight (shares.map Task.share) = Share.totalWeight shares := by
  induction shares with
  | nil => rfl
  | cons s rest ih =>
    simp only [List.map_cons, sumOf_cons, Share.totalWeight_cons, ih]
    rfl

/-- A task leaves less to do than there was. -/
theorem stepTask_weight_lt (h : Holdings) (task : Task) :
    (h.stepTask task).1.weight + sumOf Task.weight (h.stepTask task).2
      < h.weight + task.weight := by
  cases task with
  | share s =>
    rw [stepTask_share, sumOf_weight_shares]
    exact settle_weight_lt h s
  | entry r handle =>
    have hle := discharge_weight_le h (some (.entry r handle))
    simp only [stepTask, departingWith, List.nil_append, sumOf_weight_shares, Task.weight]
    exact Nat.lt_succ_of_le hle

theorem lettingGo_commutes : lettingGo.Commutes where
  nil _ := rfl
  cons := carryOut_cons
  less h task rest := by
    have hless := stepTask_weight_lt h task
    simp only [lettingGo, sumOf_append, sumOf_cons]
    omega
  weight_perm h _ _ hperm := by
    simp only [lettingGo, sumOf_perm Task.weight hperm]
  alike := alike_equivalence
  step_alike halike := halike.stepTask
  exchange := lettingGo_exchange

/-- Tasks may be carried out in any order. -/
theorem carryOut_perm {h h' : Holdings} (halike : Alike h h') {tasks more : List Task}
    (hperm : tasks.Perm more) : Alike (h.carryOut tasks) (h'.carryOut more) :=
  Process.run_perm lettingGo_commutes halike hperm

end Holdings

end Ferry
