import Ferry.Proofs.Registry.History
import Mathlib.Order.Bounds.Basic

/-!
# What a registry went through

A registry is made without slots.  From then on two operations change it: an object is stored, or an
entry is fetched.  The states that a registry was in make up its *past*, and its journal tells them
apart: no registry has two pasts.

The slot table says some things more than once.  Whatever the past was, they agree: the free list
holds the vacant slots, the one that was given up last in front; the live count is the number of the
other slots; a generation counts the entries of its slot that were given up; and there are as many
slots as there were ever live entries at one time.

Main statements: `Past.wellKept` and `Past.unique`.

## Sections

1. Pasts.
2. What one change comes to.
3. Occupied and vacant slots.
4. Generations.
5. The order of the free list.
6. The number of slots.
7. Registries that are well kept.
8. What the journal tells.
-/

namespace Ferry.Registry

variable {α : Type}

/-! ## §1 Pasts -/

/-- An operation that changes a registry. -/
inductive Changes : Registry α → Registry α → Prop where
  | store (registry : Registry α) (object : α) : Changes registry (registry.store object).1
  | fetch {registry after : Registry α} {handle : Handle} {object : α}
      (hfetch : registry.fetch handle = .ok (after, object)) : Changes registry after

/-- The states that a registry was in, the latest first. -/
inductive Past : Registry α → List (Registry α) → Prop where
  | new (identity : UInt64) : Past (new identity) []
  | change {registry after : Registry α} {past : List (Registry α)}
      (hpast : Past registry past) (hchanges : Changes registry after) :
      Past after (registry :: past)

variable {registry before after : Registry α} {past : List (Registry α)}

/-! ## §2 What one change comes to -/

/-- What a change does to the slots and to the free list. -/
inductive Turn (before after : Registry α) : Prop where
  /-- The slot on top of the free list is filled. -/
  | refilled {object : α} {handle : Handle} {index : Nat}
      (hstored : Stored before object after handle index)
      (hfree : before.free = index :: after.free)
  /-- No slot is free, and a new one is filled. -/
  | appended {object : α} {handle : Handle}
      (hstored : Stored before object after handle before.slots.size)
      (hfull : before.free = []) (hfree : after.free = [])
  /-- A slot is emptied and goes on top of the free list. -/
  | emptied {handle : Handle} {object : α} (hvacated : Vacated before handle object after)
      (hfree : after.free = handle.slot.toNat :: before.free)

theorem free_store_of_free {object : α} {index : Nat} {rest : List Nat}
    (hfree : registry.free = index :: rest) : (registry.store object).1.free = rest := by
  simp [store, hfree, record]

theorem free_store_of_full {object : α} (hfree : registry.free = []) :
    (registry.store object).1.free = [] := by
  simp [store, hfree, record]

theorem Changes.turn (hchanges : Changes before after) (htidy : before.Tidy) :
    Turn before after := by
  cases hchanges with
  | store object =>
    cases hfree : before.free with
    | nil =>
      have hstored := store_stored_of_full htidy object hfree
      exact .appended hstored hfree (free_store_of_full hfree)
    | cons index rest =>
      refine .refilled (store_stored_of_free htidy object hfree) ?_
      rw [hfree, free_store_of_free hfree]
  | fetch hfetch =>
    obtain ⟨hborrow, rfl⟩ := (fetch_eq_ok_iff _ _ _ _).mp hfetch
    exact .emptied (vacateAt_vacated htidy hborrow) rfl

theorem Turn.tidy (hturn : Turn before after) : after.Tidy := by
  cases hturn with
  | refilled hstored _ | appended hstored _ _ => exact hstored.tidy
  | emptied hvacated _ => exact hvacated.tidy

theorem Past.tidy (hpast : Past registry past) : registry.Tidy := by
  induction hpast with
  | new identity => exact tidy_new identity
  | change _ hchanges ih => exact (hchanges.turn ih).tidy

/-! ## §3 Occupied and vacant slots -/

/-- Whether a slot of the table holds no object. -/
def isVacant (registry : Registry α) (index : Nat) : Bool :=
  match registry.slots[index]? with
  | some slot => slot.object.isNone
  | none => false

theorem isVacant_iff (registry : Registry α) (index : Nat) :
    registry.isVacant index = true ↔
      ∃ slot, registry.slots[index]? = some slot ∧ slot.object = none := by
  unfold isVacant
  cases registry.slots[index]? <;> simp

theorem Tidy.mem_free_iff_isVacant (htidy : registry.Tidy) (index : Nat) :
    index ∈ registry.free ↔ registry.isVacant index = true := by
  rw [htidy.mem_free_iff, isVacant_iff]

theorem Stored.isVacant_eq {object : α} {handle : Handle} {index : Nat}
    (hstored : Stored before object after handle index) (other : Nat) :
    after.isVacant other = (before.isVacant other && !other == index) := by
  unfold isVacant
  by_cases hother : other = index
  · subst hother
    simp [hstored.filled]
  · simp [hstored.others other hother, hother]

theorem Vacated.isVacant_eq {handle : Handle} {object : α}
    (hvacated : Vacated before handle object after) (other : Nat) :
    after.isVacant other = (other == handle.slot.toNat || before.isVacant other) := by
  unfold isVacant
  by_cases hother : other = handle.slot.toNat
  · subst hother
    simp [hvacated.emptied]
  · simp [hvacated.others other hother, hother]

/-- The slot of a live entry is not vacant. -/
theorem Vacated.isVacant_before {handle : Handle} {object : α}
    (hvacated : Vacated before handle object after) :
    before.isVacant handle.slot.toNat = false := by
  simp [isVacant, hvacated.occupied]

theorem Tidy.live_eq_countP (htidy : registry.Tidy) :
    registry.live = registry.slots.countP fun slot => slot.object.isSome := by
  rw [htidy.live_eq, weight, ← Array.countP_toList]
  induction registry.slots.toList with
  | nil => rfl
  | cons slot rest ih =>
    rw [sumOf_cons, List.countP_cons, ih, Nat.add_comm]
    cases hobject : slot.object <;> simp [slotWeight, hobject]

theorem Stored.live_eq {object : α} {handle : Handle} {index : Nat}
    (hstored : Stored before object after handle index) (htidy : before.Tidy) :
    after.live = before.live + 1 := by
  rw [hstored.tidy.live_eq, hstored.weight_eq, htidy.live_eq]

theorem Vacated.live_eq {handle : Handle} {object : α}
    (hvacated : Vacated before handle object after) (htidy : before.Tidy) :
    after.live + 1 = before.live := by
  rw [hvacated.tidy.live_eq, htidy.live_eq]
  exact hvacated.weight_eq fun _ => 1

/-- Filling a vacant slot adds none. -/
theorem Stored.size_eq_of_free {object : α} {handle : Handle} {index : Nat}
    (hstored : Stored before object after handle index) (htidy : before.Tidy)
    (hfree : index ∈ before.free) : after.slots.size = before.slots.size := by
  obtain ⟨slot, hslot, _⟩ := (htidy.mem_free_iff index).mp hfree
  obtain ⟨hlt, _⟩ := Array.getElem?_eq_some_iff.mp hslot
  rw [hstored.size_eq]
  omega

/-- Live entries and vacant slots make up the table. -/
theorem Turn.size_eq (hturn : Turn before after) (htidy : before.Tidy)
    (hsize : before.live + before.free.length = before.slots.size) :
    after.live + after.free.length = after.slots.size := by
  cases hturn with
  | refilled hstored hfree =>
    have hlive := hstored.live_eq htidy
    have hslots := hstored.size_eq_of_free htidy (by simp [hfree])
    rw [hfree, List.length_cons] at hsize
    omega
  | appended hstored hfull hfree =>
    have hlive := hstored.live_eq htidy
    have hslots := hstored.size_eq
    simp only [hfull, hfree, List.length_nil] at hsize ⊢
    omega
  | emptied hvacated hfree =>
    have hlive := hvacated.live_eq htidy
    rw [hfree, hvacated.size_eq, List.length_cons]
    omega

theorem Past.size_eq (hpast : Past registry past) :
    registry.live + registry.free.length = registry.slots.size := by
  induction hpast with
  | new identity => rfl
  | change hpast hchanges ih => exact (hchanges.turn hpast.tidy).size_eq hpast.tidy ih

/-! ## §4 Generations -/

/-- Generations count the entries that were given up, and start over when words run out. -/
structure Counted (registry : Registry α) : Prop where
  generation_eq : ∀ index slot, registry.slots[index]? = some slot →
    slot.generation.toNat = 1 + registry.releasesAt index % (2 ^ 64 - 1)
  /-- No entry was given up of a slot that is not there. -/
  releasesAt_of_le : ∀ index, registry.slots.size ≤ index → registry.releasesAt index = 0

theorem Stored.counted {object : α} {handle : Handle} {index : Nat}
    (hstored : Stored before object after handle index) (hcounted : before.Counted) :
    after.Counted where
  generation_eq other slot hslot := by
    rw [hstored.releasesAt_eq]
    by_cases hother : other = index
    · subst hother
      rw [hstored.filled] at hslot
      cases hslot
      -- Filling a vacant slot keeps its generation, and a new slot has the first.
      rcases hstored.vacant with hvacant | ⟨hnew, hone⟩
      · exact hcounted.generation_eq other ⟨handle.nonce, none⟩ hvacant
      · rw [hcounted.releasesAt_of_le other hnew.le, hone]
        rfl
    · rw [hstored.others other hother] at hslot
      exact hcounted.generation_eq other slot hslot
  releasesAt_of_le other hle := by
    rw [hstored.releasesAt_eq]
    exact hcounted.releasesAt_of_le other (hstored.extends.size_le.trans hle)

theorem Vacated.counted {handle : Handle} {object : α}
    (hvacated : Vacated before handle object after) (hcounted : before.Counted) :
    after.Counted where
  generation_eq other slot hslot := by
    rw [hvacated.releasesAt_eq]
    by_cases hother : handle.slot.toNat = other
    · subst hother
      rw [hvacated.emptied] at hslot
      cases hslot
      have hgeneration := hcounted.generation_eq _ _ hvacated.occupied
      -- The last generation is followed by the first, where the count starts over.
      simp only [if_true, nextGeneration_toNat] at hgeneration ⊢
      split <;> omega
    · rw [hvacated.others other (Ne.symm hother)] at hslot
      rw [if_neg hother]
      exact hcounted.generation_eq other slot hslot
  releasesAt_of_le other hle := by
    rw [hvacated.size_eq] at hle
    -- The slot of a live entry is there.
    obtain ⟨hlt, _⟩ := Array.getElem?_eq_some_iff.mp hvacated.occupied
    rw [hvacated.releasesAt_eq, hcounted.releasesAt_of_le other hle, if_neg (by omega)]

theorem Past.counted (hpast : Past registry past) : registry.Counted := by
  induction hpast with
  | new identity => exact ⟨by simp [Registry.new], fun _ _ => rfl⟩
  | change hpast hchanges ih =>
    cases hchanges.turn hpast.tidy with
    | refilled hstored _ | appended hstored _ _ => exact hstored.counted ih
    | emptied hvacated _ => exact hvacated.counted ih

/-! ## §5 The order of the free list -/

/-- The slots whose entries were given up, the latest first. -/
def freed (registry : Registry α) : List Nat :=
  registry.released.map fun handle => handle.slot.toNat

/-- The slot that was given up last, of those that are vacant. -/
def lastFreed? (registry : Registry α) : Option Nat :=
  registry.freed.find? registry.isVacant

theorem Stored.freed_eq {object : α} {handle : Handle} {index : Nat}
    (hstored : Stored before object after handle index) : after.freed = before.freed := by
  rw [freed, freed, hstored.released_eq]

theorem Vacated.freed_eq {handle : Handle} {object : α}
    (hvacated : Vacated before handle object after) :
    after.freed = handle.slot.toNat :: before.freed := by
  rw [freed, freed, hvacated.released_eq, List.map_cons]

theorem Turn.free_eq (hturn : Turn before after) (htidy : before.Tidy)
    (horder : before.free = (before.freed.filter before.isVacant).eraseDups) :
    after.free = (after.freed.filter after.isVacant).eraseDups := by
  cases hturn with
  | @refilled object handle index hstored hfree =>
    have hfilter : after.freed.filter after.isVacant
        = (before.freed.filter before.isVacant).filter fun other => !other == index := by
      rw [hstored.freed_eq, List.filter_filter]
      exact List.filter_congr fun other _ => (hstored.isVacant_eq other).trans (Bool.and_comm _ _)
    rw [hfilter]
    rw [hfree] at horder
    -- The filled slot was the first, and it is taken out wherever else it stands.
    cases hrow : before.freed.filter before.isVacant with
    | nil => simp [hrow] at horder
    | cons first rest =>
      rw [hrow, List.eraseDups_cons, List.cons.injEq] at horder
      obtain ⟨rfl, hrest⟩ := horder
      simpa using hrest
  | appended hstored hfull hfree =>
    -- No slot was vacant, and the new one is not.
    have hvacant : ∀ other, after.isVacant other = false := by
      intro other
      have hnone : other ∉ before.free := by simp [hfull]
      rw [htidy.mem_free_iff_isVacant, Bool.not_eq_true] at hnone
      rw [hstored.isVacant_eq, hnone, Bool.false_and]
    have hnil : after.freed.filter after.isVacant = [] :=
      List.filter_eq_nil_iff.mpr fun other _ => Bool.not_eq_true _ ▸ hvacant other
    rw [hfree, hnil]
    rfl
  | @emptied handle object hvacated hfree =>
    have hfilter : (before.freed.filter after.isVacant).filter
          (fun other => !other == handle.slot.toNat)
        = before.freed.filter before.isVacant := by
      rw [List.filter_filter]
      refine List.filter_congr fun other _ => ?_
      rw [hvacated.isVacant_eq]
      -- The emptied slot was occupied before.
      by_cases hother : other = handle.slot.toNat
      · subst hother
        simp [hvacated.isVacant_before]
      · have hdiffer : (other == handle.slot.toNat) = false := by simpa using hother
        simp [hdiffer]
    have hfirst : after.isVacant handle.slot.toNat = true := by
      rw [hvacated.isVacant_eq, beq_self_eq_true, Bool.true_or]
    rw [hfree, hvacated.freed_eq, List.filter_cons_of_pos hfirst, List.eraseDups_cons, hfilter,
      ← horder]

/-- The free list holds the vacant slots in the order in which they were given up last. -/
theorem Past.free_eq (hpast : Past registry past) :
    registry.free = (registry.freed.filter registry.isVacant).eraseDups := by
  induction hpast with
  | new identity => rfl
  | change hpast hchanges ih => exact (hchanges.turn hpast.tidy).free_eq hpast.tidy ih

theorem Past.head?_free (hpast : Past registry past) :
    registry.free.head? = registry.lastFreed? := by
  rw [hpast.free_eq, lastFreed?, ← List.head?_filter]
  cases registry.freed.filter registry.isVacant with
  | nil => rfl
  | cons first rest => rw [List.eraseDups_cons, List.head?_cons, List.head?_cons]

/-- An object is stored in the slot that was given up last, of those that are vacant, or in a new
one. -/
theorem Past.store_stored (hpast : Past registry past) (object : α) :
    Stored registry object (registry.store object).1 (registry.store object).2
      (registry.lastFreed?.getD registry.slots.size) := by
  rw [← hpast.head?_free]
  cases hfree : registry.free with
  | nil => exact store_stored_of_full hpast.tidy object hfree
  | cons index rest => exact store_stored_of_free hpast.tidy object hfree

theorem Past.lastFreed?_eq_none_iff (hpast : Past registry past) :
    registry.lastFreed? = none ↔ ∀ slot ∈ registry.slots, slot.object ≠ none := by
  rw [← hpast.head?_free, List.head?_eq_none_iff, List.eq_nil_iff_forall_not_mem]
  simp only [hpast.tidy.mem_free_iff, Array.mem_iff_getElem?]
  constructor
  · rintro hnone slot ⟨index, hslot⟩ hobject
    exact hnone index ⟨slot, hslot, hobject⟩
  · rintro hall index ⟨slot, hslot, hobject⟩
    exact hall slot ⟨index, hslot⟩ hobject

/-! ## §6 The number of slots -/

theorem Past.live_le (hpast : Past registry past) : registry.live ≤ registry.slots.size := by
  have hsize := hpast.size_eq
  omega

theorem Turn.size_le (hturn : Turn before after) : before.slots.size ≤ after.slots.size := by
  cases hturn with
  | refilled hstored _ | appended hstored _ _ => exact hstored.extends.size_le
  | emptied hvacated _ => exact hvacated.extends.size_le

/-- The table never had more live entries than it has slots. -/
theorem Past.live_le_of_mem (hpast : Past registry past) :
    ∀ state ∈ registry :: past, state.live ≤ registry.slots.size := by
  induction hpast with
  | new identity => simp [Registry.new]
  | change hpast hchanges ih =>
    intro state hstate
    rcases List.mem_cons.mp hstate with rfl | hstate
    · exact (hpast.change hchanges).live_le
    · exact (ih state hstate).trans (hchanges.turn hpast.tidy).size_le

/-- The table once had as many live entries as it has slots. -/
theorem Past.exists_live_eq (hpast : Past registry past) :
    ∃ state ∈ registry :: past, state.live = registry.slots.size := by
  induction hpast with
  | new identity => exact ⟨_, List.mem_cons_self, rfl⟩
  | @change registry after past hpast hchanges ih =>
    have hsize := (hpast.change hchanges).size_eq
    obtain ⟨state, hstate, hlive⟩ := ih
    -- The state that was found before still serves, unless the table grows.
    cases hchanges.turn hpast.tidy with
    | refilled hstored hfree =>
      have hslots := hstored.size_eq_of_free hpast.tidy (by simp [hfree])
      exact ⟨state, List.mem_cons_of_mem _ hstate, hlive.trans hslots.symm⟩
    | appended hstored hfull hfree =>
      -- Every slot is occupied when a slot is added.
      refine ⟨after, List.mem_cons_self, ?_⟩
      rwa [hfree, List.length_nil, Nat.add_zero] at hsize
    | emptied hvacated hfree =>
      exact ⟨state, List.mem_cons_of_mem _ hstate, hlive.trans hvacated.size_eq.symm⟩

/-! ## §7 Registries that are well kept -/

/-- The parts of a slot table agree with each other and with the past. -/
structure WellKept (registry : Registry α) (past : List (Registry α)) : Prop where
  free_nodup : registry.free.Nodup
  /-- The free list holds exactly the slots without an object. -/
  mem_free_iff : ∀ index, index ∈ registry.free ↔
    ∃ slot, registry.slots[index]? = some slot ∧ slot.object = none
  live_eq : registry.live = registry.slots.countP fun slot => slot.object.isSome
  live_add_free : registry.live + registry.free.length = registry.slots.size
  /-- What is counted down is positive. -/
  live_fetch : ∀ handle after object, registry.fetch handle = .ok (after, object) →
    after.live + 1 = registry.live
  generation_eq : ∀ index slot, registry.slots[index]? = some slot →
    registry.releasesAt index < 2 ^ 64 - 1 →
    slot.generation.toNat = 1 + registry.releasesAt index
  generation_ne_zero : ∀ (index : Nat) slot, registry.slots[index]? = some slot →
    slot.generation ≠ 0
  /-- There are as many slots as there were ever live entries. -/
  size_isGreatest : IsGreatest {n | ∃ state ∈ registry :: past, state.live = n} registry.slots.size
  /-- An object is stored in the slot that was given up last, of those that are still vacant. -/
  store_stored : ∀ object, Stored registry object (registry.store object).1
    (registry.store object).2 (registry.lastFreed?.getD registry.slots.size)
  /-- A slot is added only if all others are occupied. -/
  lastFreed?_eq_none_iff : registry.lastFreed? = none ↔
    ∀ slot ∈ registry.slots, slot.object ≠ none

theorem Past.wellKept (hpast : Past registry past) : registry.WellKept past where
  free_nodup := hpast.tidy.free_nodup
  mem_free_iff := hpast.tidy.mem_free_iff
  live_eq := hpast.tidy.live_eq_countP
  live_add_free := hpast.size_eq
  live_fetch handle after object hfetch := by
    obtain ⟨hborrow, rfl⟩ := (fetch_eq_ok_iff _ _ _ _).mp hfetch
    exact (vacateAt_vacated hpast.tidy hborrow).live_eq hpast.tidy
  generation_eq index slot hslot hlt := by
    rw [hpast.counted.generation_eq index slot hslot, Nat.mod_eq_of_lt hlt]
  generation_ne_zero index slot hslot hzero := by
    have hgeneration := hpast.counted.generation_eq index slot hslot
    rw [hzero, UInt64.toNat_zero] at hgeneration
    omega
  size_isGreatest := by
    refine ⟨hpast.exists_live_eq, ?_⟩
    rintro n ⟨state, hstate, rfl⟩
    exact hpast.live_le_of_mem state hstate
  store_stored := hpast.store_stored
  lastFreed?_eq_none_iff := hpast.lastFreed?_eq_none_iff

/-! ## §8 What the journal tells -/

theorem journal_store (registry : Registry α) (object : α) :
    (registry.store object).1.journal
      = .stored (registry.store object).2 object :: registry.journal := by
  unfold store
  split <;> rfl

theorem journal_fetch (htidy : before.Tidy) {handle : Handle} {object : α}
    (hfetch : before.fetch handle = .ok (after, object)) :
    after.journal = .released handle :: before.journal := by
  obtain ⟨hborrow, rfl⟩ := (fetch_eq_ok_iff _ _ _ _).mp hfetch
  exact (vacateAt_vacated htidy hborrow).journal_eq

theorem Changes.identity_eq (hchanges : Changes before after) :
    after.identity = before.identity := by
  cases hchanges with
  | store object => exact identity_store before object
  | fetch hfetch => exact identity_fetch hfetch

/-- The latest event of the journal tells the latest change. -/
theorem Changes.eq_of_journal {before' after' : Registry α} (hchanges : Changes before after)
    (hchanges' : Changes before' after') (htidy : before.Tidy) (htidy' : before'.Tidy)
    (hjournal : after'.journal = after.journal) :
    before'.journal = before.journal ∧ (before' = before → after' = after) := by
  cases hchanges with
  | store object =>
    rw [journal_store] at hjournal
    cases hchanges' with
    | store object' =>
      rw [journal_store, List.cons.injEq, Event.stored.injEq] at hjournal
      obtain ⟨⟨_, rfl⟩, hearlier⟩ := hjournal
      exact ⟨hearlier, fun heq => heq ▸ rfl⟩
    -- The events of a store and of a fetch differ.
    | fetch hfetch' =>
      rw [journal_fetch htidy' hfetch', List.cons.injEq] at hjournal
      cases hjournal.1
  | fetch hfetch =>
    rw [journal_fetch htidy hfetch] at hjournal
    cases hchanges' with
    | store object' =>
      rw [journal_store, List.cons.injEq] at hjournal
      cases hjournal.1
    | fetch hfetch' =>
      rw [journal_fetch htidy' hfetch', List.cons.injEq, Event.released.injEq] at hjournal
      obtain ⟨rfl, hearlier⟩ := hjournal
      refine ⟨hearlier, fun heq => ?_⟩
      subst heq
      rw [hfetch] at hfetch'
      cases hfetch'
      rfl

theorem Changes.journal_ne_nil (hchanges : Changes before after) (htidy : before.Tidy) :
    after.journal ≠ [] := by
  cases hchanges with
  | store object => simp [journal_store]
  | fetch hfetch => simp [journal_fetch htidy hfetch]

/-- Registries of one identity with the same journal are the same and went through the same. -/
theorem Past.eq_of_journal {other : Registry α} {past' : List (Registry α)}
    (hpast : Past registry past) (hother : Past other past')
    (hidentity : other.identity = registry.identity) (hjournal : other.journal = registry.journal) :
    other = registry ∧ past' = past := by
  -- Both are taken back by one change at a time; only a new registry has an empty journal.
  induction hpast generalizing other past' with
  | new identity =>
    cases hother with
    | new identity' =>
      cases hidentity
      exact ⟨rfl, rfl⟩
    | change hpast' hchanges' => exact absurd hjournal (hchanges'.journal_ne_nil hpast'.tidy)
  | change hpast hchanges ih =>
    cases hother with
    | new identity' => exact absurd hjournal.symm (hchanges.journal_ne_nil hpast.tidy)
    | change hpast' hchanges' =>
      obtain ⟨hearlier, hafter⟩ :=
        hchanges.eq_of_journal hchanges' hpast.tidy hpast'.tidy hjournal
      rw [hchanges.identity_eq, hchanges'.identity_eq] at hidentity
      obtain ⟨hbefore, hpasts⟩ := ih hpast' hidentity hearlier
      exact ⟨hafter hbefore, by rw [hbefore, hpasts]⟩

theorem Past.unique {past' : List (Registry α)} (hpast : Past registry past)
    (hother : Past registry past') : past' = past :=
  (hpast.eq_of_journal hother rfl rfl).2

end Ferry.Registry
