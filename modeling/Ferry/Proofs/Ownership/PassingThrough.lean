import Ferry.Proofs.Ownership.Honoured
import Ferry.Proofs.Registry.Reuse

/-!
# Through a token and back

An object that is sent through a token comes back as itself.  The entry that is made for it is named
by the token under an owner that nobody else holds, so redeeming it gives the entry up, and the
object with it.  Whatever the holdings are, nothing else happens: the share that the caller hands in
is the one that comes back, and of the registry only the slot that was used tells of it.

Main statements: `Holdings.throughToken_ok` and `Holdings.throughTokens_ok`, what remains of one
passage and of any number; and `transparent_after`, what this comes to after a script.

## Sections

1. One passage.
2. Any number of passages.
3. After a script.
-/

namespace Ferry

namespace Holdings

/-! ## §1 One passage -/

/-- Of what is alive, nothing tells two holdings apart but a slot of one registry that was used a
number of times in between. -/
structure Unmoved (times : Nat) (r : Nat) (h h' : Holdings) : Prop where
  items_eq : h'.items = h.items
  exceptions_eq : h'.exceptions = h.exceptions
  tallies_eq : h'.tallies = h.tallies
  /-- Every owner has the same duty and as many holders. -/
  owners_eq : ∀ o, h'.owners.cell? o = h.owners.cell? o
  size_eq : h'.registries.size = h.registries.size
  others : ∀ other, other ≠ r → h'.registry other = h.registry other
  reused : (h.registry r).Reused times (h'.registry r)

variable {h h' h'' : Holdings} {r : Nat} {handle : Handle} {o : OwnerRef} {object : Object}

/-- The payload of an object that was stored: its entry is live, and its owner is new. -/
structure Mints (h : Holdings) (r : Nat) (object : Object) (minted : Holdings × Payload)
    (handle : Handle) (o : OwnerRef) : Prop where
  payload_eq : minted.2 = { bytes := Token.encode handle, owner := some o }
  registry_eq : minted.1.registry r = ((h.registry r).store object).1
  borrow_eq : (minted.1.registry r).borrow handle = .ok object
  slot_eq : handle.slot.toNat = (h.registry r).nextSlot
  sole : minted.1.owners.cell? o = some ⟨1, .entry r handle⟩

theorem mint_mints (hr : r < h.registries.size) (htidy : (h.registry r).Tidy)
    (hroom : (h.registry r).nextSlot < 2 ^ 64) (object : Object) :
    Mints h r object (h.mint r object) ((h.registry r).store object).2
      (h.owners.insert (.entry r ((h.registry r).store object).2)).2 := by
  obtain ⟨hlive, hslot⟩ := Registry.borrow_store htidy hroom object
  have hregistry : (h.mint r object).1.registry r = ((h.registry r).store object).1 :=
    registry_setRegistry_self hr _
  refine
    { payload_eq := rfl
      registry_eq := hregistry
      borrow_eq := hregistry ▸ hlive
      slot_eq := hslot
      sole := ?_ }
  exact (Pool.cell?_insert h.owners _ _).trans (if_pos rfl)

/-- The payload resolves, and nobody else holds its owner. -/
theorem Mints.consume_eq {minted : Holdings × Payload} (hmints : Mints h r object minted handle o) :
    minted.1.consume r minted.2
      = (({ minted.1 with owners := (minted.1.owners.release o).1 } : Holdings).setRegistry r
          ((minted.1.registry r).vacateAt handle.slot.toNat), .ok object) := by
  have howns : minted.1.owners.content? o = some (.entry r handle) :=
    Pool.content?_eq_some_iff.mpr ⟨_, hmints.sole, rfl⟩
  have hlast : minted.1.owners.holders o ≤ 1 := Nat.le_of_eq (Pool.holders_of_cell? hmints.sole)
  have hresolve : minted.1.resolve r minted.2 = .ok (handle, o) := by
    rw [hmints.payload_eq]
    -- The token reads back as the handle, and the owner was made for it.
    refine (resolve_eq_ok_iff _ _ _ _ _).mpr ⟨?_, rfl, by simp [entryOf?, howns, Duty.handle?]⟩
    exact (decode_eq_ok_iff _ _ _ _).mpr
      ⟨Token.parse_encode handle, object, hmints.borrow_eq⟩
  simp only [consume, hresolve, hlast, if_true]
  exact redeem_of_last howns hlast hmints.borrow_eq

/-- What comes back is still of the type that was sent, so the last look at it stops nothing. -/
theorem throughToken_of_consume {after : Holdings}
    (hconsume : (h.mint r object).1.consume r (h.mint r object).2 = (after, .ok object))
    (hitems : after.items = h.items) : h.throughToken r object = (after, .ok object) := by
  have htypes : after.typeOf? object = h.typeOf? object := by
    cases object with
    | item ref => simp only [typeOf?, hitems]
    | exception e => rfl
  unfold throughToken
  simp only [hconsume]
  split
  · next type htype => exact downcast_of_hasType (hasType_iff.mpr (htypes.trans htype))
  · rfl

/-- An object comes back from its token, and leaves no more than a slot that was used. -/
theorem throughToken_ok (hr : r < h.registries.size) (htidy : (h.registry r).Tidy)
    (hroom : (h.registry r).nextSlot < 2 ^ 64) (object : Object) :
    ∃ h', h.throughToken r object = (h', .ok object) ∧ Unmoved 1 r h h' := by
  have hmints := mint_mints hr htidy hroom object
  refine ⟨_, throughToken_of_consume hmints.consume_eq rfl, ?_⟩
  refine
    { items_eq := rfl
      exceptions_eq := rfl
      tallies_eq := rfl
      owners_eq := fun o => Pool.cell?_release_insert h.owners _ o
      size_eq := (size_setRegistry _ r _).trans (size_setRegistry h r _)
      others := fun other hother => ?_
      reused := ?_ }
  · exact (registry_setRegistry_of_ne _ _ hother).trans (registry_setRegistry_of_ne h _ hother)
  · rw [registry_setRegistry_self ((size_setRegistry h r _).symm ▸ hr), hmints.registry_eq,
      hmints.slot_eq]
    exact Registry.store_vacate_reused htidy hroom object

/-! ## §2 Any number of passages -/

/-- Sends objects through tokens, one after the other. -/
def throughTokens (h : Holdings) (r : Nat) : List Object → Holdings × List (Except Fault Object)
  | [] => (h, [])
  | object :: rest =>
    let passed := h.throughToken r object
    let others := passed.1.throughTokens r rest
    (others.1, passed.2 :: others.2)

theorem Unmoved.trans {times more : Nat} (hfirst : Unmoved times r h h')
    (hsecond : Unmoved more r h' h'') : Unmoved (more + times) r h h'' where
  items_eq := hsecond.items_eq.trans hfirst.items_eq
  exceptions_eq := hsecond.exceptions_eq.trans hfirst.exceptions_eq
  tallies_eq := hsecond.tallies_eq.trans hfirst.tallies_eq
  owners_eq o := (hsecond.owners_eq o).trans (hfirst.owners_eq o)
  size_eq := hsecond.size_eq.trans hfirst.size_eq
  others other hother := (hsecond.others other hother).trans (hfirst.others other hother)
  reused := hfirst.reused.trans hsecond.reused

/-- However many objects pass, each comes back, and all of them use the same slot. -/
theorem throughTokens_ok (hr : r < h.registries.size) (htidy : (h.registry r).Tidy)
    (hroom : (h.registry r).nextSlot < 2 ^ 64) (object : Object) (objects : List Object) :
    ∃ h', h.throughTokens r (object :: objects) = (h', (object :: objects).map .ok) ∧
      Unmoved (objects.length + 1) r h h' := by
  induction objects generalizing h object with
  | nil =>
    obtain ⟨h', hpassed, hunmoved⟩ := throughToken_ok hr htidy hroom object
    refine ⟨h', ?_, hunmoved⟩
    simp only [throughTokens, hpassed, List.map_cons, List.map_nil]
  | cons next objects ih =>
    obtain ⟨middle, hpassed, hfirst⟩ := throughToken_ok hr htidy hroom object
    -- The slot that was used is the next one again, so there is room for it.
    obtain ⟨h', hothers, hrest⟩ := ih (hfirst.size_eq.symm ▸ hr) hfirst.reused.tidy
      (hfirst.reused.nextSlot_eq.symm ▸ hroom) next
    refine ⟨h', ?_, hfirst.trans hrest⟩
    rw [throughTokens, hpassed]
    simp only [hothers, List.map_cons]

/-- What can be seen of the holdings is as it was, in one registry and in all others. -/
structure Untouched (r : Nat) (h h' : Holdings) : Prop where
  /-- Every handle is answered as before, with the same object or the same fault. -/
  borrow_eq : ∀ other handle, (h'.registry other).borrow handle = (h.registry other).borrow handle
  live_eq : ∀ other, (h'.registry other).live = (h.registry other).live
  /-- Everything has as many holders as before. -/
  holders_eq : ∀ share, h'.holders share = h.holders share
  typeOf_eq : ∀ object, h'.typeOf? object = h.typeOf? object
  /-- The table has one slot more at most. -/
  size_le : (h'.registry r).slots.size ≤ (h.registry r).slots.size + 1

theorem Unmoved.untouched {times : Nat} (hunmoved : Unmoved times r h h')
    (htidy : (h.registry r).Tidy) : Untouched r h h' where
  borrow_eq other handle := by
    by_cases hother : other = r
    · subst hother
      exact hunmoved.reused.borrow_eq htidy handle
    · rw [hunmoved.others other hother]
  live_eq other := by
    by_cases hother : other = r
    · subst hother
      exact hunmoved.reused.live_eq
    · rw [hunmoved.others other hother]
  holders_eq share := by
    cases share using Share.cases with
    | owner o => simp only [holders, Pool.holders, hunmoved.owners_eq o]
    | item ref => exact congrArg (Pool.holders · ref) hunmoved.items_eq
    | exception e => exact congrArg (Pool.holders · e) hunmoved.exceptions_eq
  typeOf_eq object := by
    cases object with
    | item ref => simp only [typeOf?, hunmoved.items_eq]
    | exception e => rfl
  size_le := hunmoved.reused.size_le htidy

/-- What sending objects through tokens of a registry comes to. -/
structure Transparent (h : Holdings) (r : Nat) : Prop where
  passes : ∀ object, ∃ h', h.throughToken r object = (h', .ok object) ∧
    Unmoved 1 r h h' ∧ Untouched r h h'
  repeats : ∀ object objects, ∃ h',
    h.throughTokens r (object :: objects) = (h', (object :: objects).map .ok) ∧
      Unmoved (objects.length + 1) r h h' ∧ Untouched r h h'

theorem transparent_of_room (hr : r < h.registries.size) (htidy : (h.registry r).Tidy)
    (hroom : (h.registry r).nextSlot < 2 ^ 64) : h.Transparent r where
  passes object := by
    obtain ⟨h', hpassed, hunmoved⟩ := throughToken_ok hr htidy hroom object
    exact ⟨h', hpassed, hunmoved, hunmoved.untouched htidy⟩
  repeats object objects := by
    obtain ⟨h', hpassed, hunmoved⟩ := throughTokens_ok hr htidy hroom object objects
    exact ⟨h', hpassed, hunmoved, hunmoved.untouched htidy⟩

end Holdings

namespace Script.Session

/-! ## §3 After a script -/

/-- Whatever a script has done with the registries, any object that is sent through a token comes
back, as often as it is sent, and all that was alive is as it was.  Nothing but the registries
matters, so the caller may have any shares. -/
theorem transparent_after (identities : List UInt64) (bridges : List Bridge)
    (commands : List Command) {h : Holdings} {r : Nat}
    (reached : h.registries = ((start identities bridges).after commands).holdings.registries)
    (registry : r < identities.length) (room : (h.registry r).slots.size < 2 ^ 64) :
    h.Transparent r := by
  have hafter := after_consistent identities bridges commands
  have htidy : (h.registry r).Tidy := by
    rw [Holdings.registry_eq reached]
    exact hafter.tidy r
  have hsize : h.registries.size = identities.length :=
    (congrArg Array.size reached).trans (size_registries_after identities bridges commands)
  exact Holdings.transparent_of_room (hsize.symm ▸ registry) htidy
    (Nat.lt_of_le_of_lt (Registry.nextSlot_le htidy) room)

/-- Three objects are stored, and the entry in the middle is given up: its slot is free. -/
def vacating : List Command :=
  [.object (.new "a" (.number 1)), .object (.new "b" (.text "two")), .object (.new "c" (.number 3)),
    .object (.store "a" "ha" 0), .object (.store "b" "hb" 0), .object (.store "c" "hc" 0),
    .object (.release "hb" 0)]

/-- The text is sent three times and comes back three times.  The free slot is used every time, the
entries of the numbers are not touched, and the stale handle stays stale. -/
theorem transparent_after_vacating :
    let h := ((start [7] [.new 0 {}]).after vacating).holdings
    0 < [(7 : UInt64)].length ∧ (h.registry 0).slots.size < 2 ^ 64 ∧
      ∃ h', h.throughTokens 0 [.item ⟨1⟩, .item ⟨1⟩, .item ⟨1⟩]
          = (h', [.ok (.item ⟨1⟩), .ok (.item ⟨1⟩), .ok (.item ⟨1⟩)]) ∧
        (h'.registry 0).free = [1] ∧ (h'.registry 0).slots[1]? = some ⟨5, none⟩ ∧
        (h'.registry 0).borrow ⟨7, 0, 1⟩ = .ok (.item ⟨0⟩) ∧
        (h'.registry 0).borrow ⟨7, 1, 1⟩ = .error (.stale 1 1) ∧
        h'.items.holders ⟨1⟩ = 1 := by
  intro h
  have registry : 0 < [(7 : UInt64)].length := by decide
  have room : (h.registry 0).slots.size < 2 ^ 64 := by decide +kernel
  have htransparent := transparent_after [7] [.new 0 {}] vacating (h := h) rfl registry room
  obtain ⟨h', hpassed, hunmoved, huntouched⟩ :=
    htransparent.repeats (.item ⟨1⟩) [.item ⟨1⟩, .item ⟨1⟩]
  have hnext : (h.registry 0).nextSlot = 1 := by decide +kernel
  have hnonce : nextGeneration^[3] (h.registry 0).nextNonce = 5 := by decide +kernel
  have hfree : (h.registry 0).nextSlot :: (h.registry 0).free.tail = [1] := by decide +kernel
  have hfirst : (h.registry 0).borrow ⟨7, 0, 1⟩ = .ok (.item ⟨0⟩) := by decide +kernel
  have hstale : (h.registry 0).borrow ⟨7, 1, 1⟩ = .error (.stale 1 1) := by decide +kernel
  have hholders : h.items.holders ⟨1⟩ = 1 := by decide +kernel
  refine ⟨registry, room, h', hpassed, hunmoved.reused.free_eq.trans hfree, ?_,
    (huntouched.borrow_eq 0 _).trans hfirst, (huntouched.borrow_eq 0 _).trans hstale, ?_⟩
  · have hadvanced := hunmoved.reused.advanced
    rwa [hnext, show [Object.item ⟨1⟩, .item ⟨1⟩].length + 1 = 3 from rfl, hnonce] at hadvanced
  · rw [hunmoved.items_eq, hholders]

end Script.Session

end Ferry
