import Ferry.Holdings.Release
import Ferry.Proofs.Ownership.Cells
import Ferry.Proofs.Registry.Table

/-!
# Counting the shares of the holdings

Every share of something is one unit of its count.  Shares are held by registry entries, by items,
by exceptions, and by whoever works with the holdings.  This module says how many holders each thing
has, how many of its shares the holdings themselves hold, and how the elementary changes of the
holdings move these two numbers.

Main statements: `letGo_holders` and `letGo_held`, that giving up a share takes one holder from its
subject and that what is set free was held before.

## Sections

1. Registries by their places.
2. Holders and shares that are held.
3. Adding a share.
4. Making things.
5. Storing and giving up entries.
6. Giving up a share.
-/

namespace Ferry

/-- A share of an item. -/
abbrev Share.item (ref : ItemRef) : Share :=
  .object (.item ref)

/-- A share of an exception. -/
abbrev Share.exception (e : ExceptionRef) : Share :=
  .object (.exception e)

/-- A share is one of an owner, of an item or of an exception. -/
@[elab_as_elim, cases_eliminator]
theorem Share.cases {motive : Share → Prop} (owner : ∀ ref, motive (.owner ref))
    (item : ∀ ref, motive (.object (.item ref)))
    (exception : ∀ ref, motive (.object (.exception ref))) (s : Share) : motive s :=
  match s with
  | .owner ref => owner ref
  | .object (.item ref) => item ref
  | .object (.exception ref) => exception ref

/-- The shares that an exception holds. -/
def Node.shares (node : Node) : List Share :=
  node.links.map Share.exception

namespace Holdings

/-! ## §1 Registries by their places -/

theorem registry_of_lt {h : Holdings} {r : Nat} (hr : r < h.registries.size) :
    h.registries.toList[r]? = some (h.registry r) := by
  have hget : h.registries[r]? = some (h.registry r) := by
    simp [registry, Array.getD, hr]
  simpa using hget

theorem registry_of_le {h : Holdings} {r : Nat} (hr : h.registries.size ≤ r) :
    h.registry r = Registry.new 0 := by
  simp [registry, Array.getD, Nat.not_lt.mpr hr]

theorem registry_eq {h h' : Holdings} (heq : h'.registries = h.registries) (r : Nat) :
    h'.registry r = h.registry r := by
  unfold registry
  rw [heq]

@[simp] theorem size_setRegistry (h : Holdings) (r : Nat) (x : Registry Object) :
    (h.setRegistry r x).registries.size = h.registries.size :=
  Array.size_setIfInBounds

theorem registry_setRegistry_self {h : Holdings} {r : Nat} (hr : r < h.registries.size)
    (x : Registry Object) : (h.setRegistry r x).registry r = x := by
  simp [registry, setRegistry, Array.getD, hr]

theorem registry_setRegistry_of_ne (h : Holdings) {r other : Nat} (x : Registry Object)
    (hne : other ≠ r) : (h.setRegistry r x).registry other = h.registry other := by
  simp only [registry, setRegistry, Array.getD_eq_getD_getElem?]
  rw [Array.getElem?_setIfInBounds_ne (Ne.symm hne)]

/-- Only a registry that is there has entries. -/
theorem lt_of_borrow {h : Holdings} {r : Nat} {handle : Handle} {object : Object}
    (hborrow : (h.registry r).borrow handle = .ok object) : r < h.registries.size := by
  by_contra hr
  rw [registry_of_le (Nat.le_of_not_lt hr), Registry.borrow_eq_ok_iff_slot] at hborrow
  simp [Registry.new] at hborrow

/-! ## §2 Holders and shares that are held -/

/-- The number of holders of what a share is of. -/
def holders (h : Holdings) : Share → Nat
  | .owner ref => h.owners.holders ref
  | .object (.item ref) => h.items.holders ref
  | .object (.exception ref) => h.exceptions.holders ref

/-- One if an entry of an object holds a share, and zero otherwise. -/
def entryHolds (s : Share) (object : Object) : Nat :=
  if .object object = s then 1 else 0

/-- The number of shares of something that the entries of all registries hold. -/
def heldByEntries (h : Holdings) (s : Share) : Nat :=
  sumOf (Registry.weight (entryHolds s)) h.registries.toList

/-- The number of shares of something that items hold. -/
def heldByItems (h : Holdings) (s : Share) : Nat :=
  h.items.weight fun item => item.shares.count s

/-- The number of shares of something that exceptions hold. -/
def heldByExceptions (h : Holdings) (s : Share) : Nat :=
  h.exceptions.weight fun node => node.shares.count s

/-- The number of shares of something that the holdings hold themselves. -/
def held (h : Holdings) (s : Share) : Nat :=
  h.heldByEntries s + h.heldByItems s + h.heldByExceptions s

/-- Exchanging a registry moves the shares that entries hold by the difference. -/
theorem heldByEntries_setRegistry {h : Holdings} {r : Nat} (hr : r < h.registries.size)
    (x : Registry Object) (s : Share) :
    (h.setRegistry r x).heldByEntries s + (h.registry r).weight (entryHolds s)
      = h.heldByEntries s + x.weight (entryHolds s) := by
  simp only [heldByEntries, setRegistry, Array.toList_setIfInBounds]
  exact sumOf_set _ _ x (registry_of_lt hr)

/-- A live entry holds a share of its object. -/
theorem held_pos_of_borrow {h : Holdings} {r : Nat} {handle : Handle} {object : Object}
    (hborrow : (h.registry r).borrow handle = .ok object) : 0 < h.held (.object object) := by
  have hr := lt_of_borrow hborrow
  obtain ⟨_, hslot⟩ := (Registry.borrow_eq_ok_iff_slot _ _ _).mp hborrow
  have hentry := Registry.le_weight (w := entryHolds (.object object)) hslot rfl
  have hmem : h.registry r ∈ h.registries.toList := List.mem_of_getElem? (registry_of_lt hr)
  have hle : (h.registry r).weight (entryHolds (.object object))
      ≤ h.heldByEntries (.object object) :=
    le_sumOf hmem
  have hone : entryHolds (.object object) object = 1 := if_pos rfl
  unfold held
  omega

/-- A share that an entry holds is that of an object. -/
theorem exists_entry_of_heldByEntries_pos {h : Holdings} {s : Share}
    (hpos : 0 < h.heldByEntries s) :
    ∃ (r i : Nat) (slot : Slot Object) (object : Object), r < h.registries.size ∧
      (h.registry r).slots[i]? = some slot ∧ slot.object = some object ∧ s = .object object := by
  obtain ⟨registry, hregistry, hregistry_pos⟩ := exists_of_sumOf_pos hpos
  obtain ⟨r, hr⟩ := List.mem_iff_getElem?.mp hregistry
  have hlt : r < h.registries.size := by
    obtain ⟨hlt, _⟩ := List.getElem?_eq_some_iff.mp hr
    simpa using hlt
  rw [registry_of_lt hlt, Option.some.injEq] at hr
  subst hr
  obtain ⟨i, slot, object, hslot, hobject, hweight⟩ := Registry.exists_of_weight_pos hregistry_pos
  refine ⟨r, i, slot, object, hlt, hslot, hobject, ?_⟩
  -- Only the share of its own object weighs anything in an entry.
  by_contra hne
  rw [entryHolds, if_neg fun heq => hne heq.symm] at hweight
  exact Nat.lt_irrefl _ hweight

/-! ## §3 Adding a share -/

/-- Adds a share of anything. -/
def retain (h : Holdings) : Share → Holdings
  | .owner ref => h.retainOwner ref
  | .object object => h.retainObject object

theorem holders_retain {h : Holdings} {s : Share} (hpos : 0 < h.holders s) (other : Share) :
    (h.retain s).holders other = h.holders other + if s = other then 1 else 0 := by
  cases s with
  | owner ref =>
    cases other with
    | owner ref' =>
      have := Pool.holders_retain h.owners hpos ref'
      simpa [retain, retainOwner, holders] using this
    | item _ | exception _ => simp [retain, retainOwner, holders]
  | item ref =>
    cases other with
    | item ref' =>
      have := Pool.holders_retain h.items hpos ref'
      simpa [retain, retainObject, holders] using this
    | owner _ | exception _ => simp [retain, retainObject, holders]
  | exception ref =>
    cases other with
    | exception ref' =>
      have := Pool.holders_retain h.exceptions hpos ref'
      simpa [retain, retainObject, retainException, holders] using this
    | owner _ | item _ => simp [retain, retainObject, retainException, holders]

theorem held_retain (h : Holdings) (s other : Share) : (h.retain s).held other = h.held other := by
  cases s with
  | owner _ => rfl
  | item ref =>
    simp [retain, retainObject, held, heldByEntries, heldByItems, heldByExceptions]
  | exception ref =>
    simp [retain, retainObject, retainException, held, heldByEntries, heldByItems,
      heldByExceptions]

@[simp] theorem registries_retain (h : Holdings) (s : Share) :
    (h.retain s).registries = h.registries := by
  cases s with
  | owner _ | item _ | exception _ => rfl

@[simp] theorem content?_owners_retain (h : Holdings) (s : Share) (o : OwnerRef) :
    (h.retain s).owners.content? o = h.owners.content? o := by
  cases s with
  | owner ref => exact Pool.content?_retain h.owners ref o
  | item _ | exception _ => rfl

@[simp] theorem content?_items_retain (h : Holdings) (s : Share) (ref : ItemRef) :
    (h.retain s).items.content? ref = h.items.content? ref := by
  cases s with
  | item older => exact Pool.content?_retain h.items older ref
  | owner _ | exception _ => rfl

/-! ## §4 Making things -/

/-- Exchanges the exceptions. -/
def withExceptions (h : Holdings) (g : ExceptionGraph) : Holdings :=
  { h with exceptions := g }

@[simp] theorem exceptions_withExceptions (h : Holdings) (g : ExceptionGraph) :
    (h.withExceptions g).exceptions = g := rfl

theorem holders_newItem (h : Holdings) (item : Item) (s : Share) :
    (h.newItem item).1.holders s
      = h.holders s + if .item (h.newItem item).2 = s then 1 else 0 := by
  cases s with
  | item ref =>
    have := Pool.holders_insert h.items item ref
    simpa [newItem, holders] using this
  | owner _ | exception _ => simp [newItem, holders]

theorem held_newItem (h : Holdings) (item : Item) (s : Share) :
    (h.newItem item).1.held s = h.held s + item.shares.count s := by
  have := Pool.weight_insert (fun item : Item => item.shares.count s) h.items item
  simp only [newItem, held, heldByEntries, heldByItems, heldByExceptions] at this ⊢
  omega

theorem holders_newOwner (h : Holdings) (duty : Duty) (s : Share) :
    (h.newOwner duty).1.holders s
      = h.holders s + if .owner (h.newOwner duty).2 = s then 1 else 0 := by
  cases s with
  | owner ref =>
    have := Pool.holders_insert h.owners duty ref
    simpa [newOwner, holders] using this
  | item _ | exception _ => simp [newOwner, holders]

theorem held_newOwner (h : Holdings) (duty : Duty) (s : Share) :
    (h.newOwner duty).1.held s = h.held s := rfl

theorem holders_insertNode (h : Holdings) (node : Node) (s : Share) :
    (h.withExceptions (h.exceptions.insert node).1).holders s
      = h.holders s + if .exception (h.exceptions.insert node).2 = s then 1 else 0 := by
  cases s with
  | exception ref =>
    have := Pool.holders_insert h.exceptions node ref
    simpa [withExceptions, holders] using this
  | owner _ | item _ => simp [withExceptions, holders]

theorem held_insertNode (h : Holdings) (node : Node) (s : Share) :
    (h.withExceptions (h.exceptions.insert node).1).held s
      = h.held s + node.shares.count s := by
  have := Pool.weight_insert (fun node : Node => node.shares.count s) h.exceptions node
  simp only [withExceptions, held, heldByEntries, heldByItems, heldByExceptions] at this ⊢
  omega

theorem holders_editNode (h : Holdings) (e : ExceptionRef) (f : Node → Node) (s : Share) :
    (h.withExceptions (h.exceptions.edit e f)).holders s = h.holders s := by
  cases s with
  | exception ref => exact Pool.holders_edit h.exceptions e ref f
  | owner _ | item _ => rfl

theorem held_editNode {h : Holdings} {e : ExceptionRef} {node : Node}
    (hnode : h.exceptions.content? e = some node) (f : Node → Node) (s : Share) :
    (h.withExceptions (h.exceptions.edit e f)).held s + node.shares.count s
      = h.held s + (f node).shares.count s := by
  have := Pool.weight_edit (fun node : Node => node.shares.count s) h.exceptions hnode f
  simp only [withExceptions, held, heldByEntries, heldByItems, heldByExceptions] at this ⊢
  omega

/-! ## §5 Storing and giving up entries -/

section Entries

variable {h : Holdings} {r : Nat} {handle : Handle} {object : Object} {x : Registry Object}

@[simp] theorem holders_setRegistry (h : Holdings) (r : Nat) (x : Registry Object) (s : Share) :
    (h.setRegistry r x).holders s = h.holders s := by
  cases s with
  | owner _ | item _ | exception _ => rfl

/-- A new entry holds a share of its object. -/
theorem held_setRegistry_stored (hr : r < h.registries.size) {index : Nat}
    (hstored : Registry.Stored (h.registry r) object x handle index) (s : Share) :
    (h.setRegistry r x).held s = h.held s + entryHolds s object := by
  have hsum := heldByEntries_setRegistry hr x s
  have hweight := hstored.weight_eq (entryHolds s)
  -- Items and exceptions are left alone by an exchange of a registry.
  have hitems : (h.setRegistry r x).heldByItems s = h.heldByItems s := rfl
  have hexceptions : (h.setRegistry r x).heldByExceptions s = h.heldByExceptions s := rfl
  simp only [held, hitems, hexceptions]
  omega

/-- An entry that is given up sets its share free. -/
theorem held_setRegistry_vacated (hr : r < h.registries.size)
    (hvacated : Registry.Vacated (h.registry r) handle object x) (s : Share) :
    (h.setRegistry r x).held s + entryHolds s object = h.held s := by
  have hsum := heldByEntries_setRegistry hr x s
  have hweight := hvacated.weight_eq (entryHolds s)
  -- Items and exceptions are left alone by an exchange of a registry.
  have hitems : (h.setRegistry r x).heldByItems s = h.heldByItems s := rfl
  have hexceptions : (h.setRegistry r x).heldByExceptions s = h.heldByExceptions s := rfl
  simp only [held, hitems, hexceptions]
  omega

/-- Fetching gives up the entry that it finds. -/
theorem vacated_of_fetch (htidy : (h.registry r).Tidy)
    (hfetch : (h.registry r).fetch handle = .ok (x, object)) :
    r < h.registries.size ∧ Registry.Vacated (h.registry r) handle object x := by
  obtain ⟨hborrow, rfl⟩ := (Registry.fetch_eq_ok_iff _ _ _ _).mp hfetch
  exact ⟨lt_of_borrow hborrow, Registry.vacateAt_vacated htidy hborrow⟩

end Entries

/-! ## §6 Giving up a share -/

/-- Gives up one share and returns what this sets free.  What a departing exception held is set free
and not given up in turn. -/
def letGo (h : Holdings) : Share → Holdings × List Share
  | .object (.exception ref) =>
    let released := h.exceptions.release ref
    (h.withExceptions released.1, (ExceptionGraph.departing released.2).map Share.exception)
  | .owner ref => h.settle (.owner ref)
  | .object (.item ref) => h.settle (.object (.item ref))

/-- Doing a duty changes registries and tallies only. -/
theorem discharge_pools (h : Holdings) (duty : Option Duty) :
    (h.discharge duty).1.owners = h.owners ∧ (h.discharge duty).1.items = h.items ∧
      (h.discharge duty).1.exceptions = h.exceptions := by
  unfold discharge
  split
  · exact ⟨rfl, rfl, rfl⟩
  · exact ⟨rfl, rfl, rfl⟩
  · split <;> exact ⟨rfl, rfl, rfl⟩

/-- Giving up an entry leaves the tallies alone. -/
theorem tallies_discharge_entry (h : Holdings) (r : Nat) (handle : Handle) :
    (h.discharge (some (.entry r handle))).1.tallies = h.tallies := by
  simp only [discharge]
  cases (h.registry r).fetch handle <;> rfl

theorem letGo_owner_pools (h : Holdings) (o : OwnerRef) :
    (h.letGo (.owner o)).1.owners = (h.owners.release o).1 ∧
      (h.letGo (.owner o)).1.items = h.items ∧
      (h.letGo (.owner o)).1.exceptions = h.exceptions :=
  discharge_pools _ _

/-- An owner that is kept keeps its duty. -/
theorem owners_letGo_sub (h : Holdings) (s : Share) {o : OwnerRef} {duty : Duty}
    (hduty : (h.letGo s).1.owners.content? o = some duty) :
    h.owners.content? o = some duty := by
  cases s with
  | owner ref =>
    rw [(letGo_owner_pools h ref).1] at hduty
    exact Pool.content?_of_release hduty
  | item _ | exception _ => exact hduty

@[simp] theorem size_discharge (h : Holdings) (duty : Option Duty) :
    (h.discharge duty).1.registries.size = h.registries.size := by
  unfold discharge
  split
  · rfl
  · rfl
  · split
    · rfl
    · exact size_setRegistry _ _ _

/-- Doing a duty changes no number of holders. -/
theorem holders_discharge (h : Holdings) (duty : Option Duty) (s : Share) :
    (h.discharge duty).1.holders s = h.holders s := by
  obtain ⟨howners, hitems, hexceptions⟩ := discharge_pools h duty
  cases s with
  | owner ref => exact congrArg (Pool.holders · ref) howners
  | item ref => exact congrArg (Pool.holders · ref) hitems
  | exception ref => exact congrArg (Pool.holders · ref) hexceptions

/-- What doing a duty sets free was held by the entry that is given up. -/
theorem held_discharge {h : Holdings} (htidy : ∀ r, (h.registry r).Tidy) (duty : Option Duty)
    (s : Share) : (h.discharge duty).1.held s + (h.discharge duty).2.count s = h.held s := by
  unfold discharge
  split
  · rfl
  · rfl
  · rename_i r handle
    split
    · rfl
    · rename_i x object hfetch
      obtain ⟨hr, hvacated⟩ := vacated_of_fetch (htidy r) hfetch
      have hheld := held_setRegistry_vacated hr hvacated s
      have hcount : List.count s [Share.object object] = entryHolds s object := by
        simp [entryHolds, List.count_singleton]
      rw [hcount]
      exact hheld

/-- Giving up a share takes one holder from its subject. -/
theorem letGo_holders (h : Holdings) (s other : Share) :
    (h.letGo s).1.holders other = h.holders other - if s = other then 1 else 0 := by
  cases s with
  | owner ref =>
    simp only [letGo, settle, holders_discharge]
    cases other with
    | owner ref' => simpa [holders] using Pool.holders_release h.owners ref ref'
    | item _ | exception _ => simp [holders]
  | item ref =>
    cases other with
    | item ref' =>
      simpa [letGo, settle, holders] using Pool.holders_release h.items ref ref'
    | owner _ | exception _ => simp [letGo, settle, holders]
  | exception ref =>
    cases other with
    | exception ref' =>
      simpa [letGo, withExceptions, holders] using Pool.holders_release h.exceptions ref ref'
    | owner _ | item _ => simp [letGo, withExceptions, holders]

/-- What is set free was held before. -/
theorem letGo_held {h : Holdings} (htidy : ∀ r, (h.registry r).Tidy) (s other : Share) :
    (h.letGo s).1.held other + (h.letGo s).2.count other = h.held other := by
  cases s with
  | owner ref =>
    exact held_discharge (h := { h with owners := (h.owners.release ref).1 }) htidy _ other
  | item ref =>
    have hweight := Pool.weight_release (fun item : Item => item.shares.count other) h.items ref
    -- What is set free is what the departing item held, if it departs.
    have hfree : (departing (h.items.release ref).2).count other
        = ((h.items.release ref).2.map fun item : Item => item.shares.count other).getD 0 := by
      cases (h.items.release ref).2 <;> rfl
    simp only [letGo, settle, held, heldByEntries, heldByItems, heldByExceptions, hfree]
    omega
  | exception ref =>
    have hweight := Pool.weight_release (fun node : Node => node.shares.count other)
      h.exceptions ref
    -- What is set free is what the departing exception held, if it departs.
    have hfree : ((ExceptionGraph.departing (h.exceptions.release ref).2).map
          Share.exception).count other
        = ((h.exceptions.release ref).2.map fun node : Node => node.shares.count other).getD 0 := by
      cases (h.exceptions.release ref).2 <;> rfl
    simp only [letGo, withExceptions, held, heldByEntries, heldByItems, heldByExceptions, hfree]
    omega

end Holdings

end Ferry
