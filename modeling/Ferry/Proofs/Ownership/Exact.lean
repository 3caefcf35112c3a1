import Ferry.Proofs.Ownership.Exclusive
import Ferry.Proofs.Ownership.Referring

/-!
# Exact ownership

After every script, the live entries are exactly those that someone keeps: the entries that were
stored directly, and those whose owner is held by a payload that exists, save what was given up
directly.

Payloads exist in payload variables, in the slots of status variables, and in the slots of statuses
that are items; such an item is held by an object variable or by a live entry.

Main statements: an owner is kept exactly if a payload that exists holds it
(`exists_payload_of_owner`, `owner_of_payload`), and `live_after_iff`, which entries are live after
a script.

## Sections

1. The first account.
2. Payloads that exist.
3. Owners that are kept.
4. Live entries after a script.
-/

namespace Ferry.Script

open Account

/-! ## §1 The first account -/

theorem registry_start (identities : List UInt64) (r : Nat) :
    ∃ identity, (Holdings.start identities).registry r = Registry.new identity := by
  unfold Holdings.registry Holdings.start
  cases hget : identities[r]? with
  | none => exact ⟨0, by simp [Array.getD_eq_getD_getElem?, hget]⟩
  | some identity => exact ⟨identity, by simp [Array.getD_eq_getD_getElem?, hget]⟩

theorem held_start (identities : List UInt64) (s : Share) :
    (Holdings.start identities).held s = 0 := by
  have hentries : (Holdings.start identities).heldByEntries s = 0 := by
    by_contra hne
    obtain ⟨r, i, slot, object, _, hslot, _, _⟩ :=
      Holdings.exists_entry_of_heldByEntries_pos (Nat.pos_of_ne_zero hne)
    obtain ⟨identity, hregistry⟩ := registry_start identities r
    rw [hregistry] at hslot
    simp [Registry.new] at hslot
  unfold Holdings.held
  rw [hentries]
  rfl

namespace Session

theorem start_consistent (identities : List UInt64) (bridges : List Bridge) :
    ((start identities bridges).account {}).Consistent where
  tidy r := by
    obtain ⟨identity, hregistry⟩ := registry_start identities r
    exact hregistry ▸ Registry.tidy_new identity
  balance s := by
    show _ = Multiset.count s 0 + (Holdings.start identities).held s
    rw [held_start, Multiset.count_zero]
    cases s with
    | owner _ | item _ | exception _ => rfl
  owners_attended := Pool.attended_empty
  items_attended := Pool.attended_empty
  exceptions_attended := Pool.attended_empty

/-- At the start nobody answers for an entry. -/
theorem start_owns (identities : List UInt64) (bridges : List Bridge) (o : OwnerRef) (r : Nat)
    (handle : Handle) : ¬((start identities bridges).account {}).Owns o r handle := by
  intro howns
  simp [Owns, account, start, Holdings.start, Pool.content?, Pool.cell?] at howns

theorem start_exclusive (identities : List UInt64) (bridges : List Bridge) :
    ((start identities bridges).account {}).Exclusive := by
  have hregistry : ∀ r, ∃ identity,
      ((start identities bridges).account {}).holdings.registry r = Registry.new identity :=
    registry_start identities
  -- There is no entry, no owner and no event yet.
  have hnobody := start_owns identities bridges
  refine
    { faithful := fun r => ?_
      owned_issued := fun o r handle howns => absurd howns (hnobody o r handle)
      owned_unique := fun o _ r handle howns => absurd howns (hnobody o r handle)
      deposit_issued := nofun
      deposit_unowned := nofun
      live_kept := fun r handle object hborrow => ?_
      withdrawn_released := nofun
      released_withdrawn := fun r handle hreleased => ?_ }
  · obtain ⟨identity, heq⟩ := hregistry r
    exact heq ▸ Registry.faithful_new identity
  · obtain ⟨identity, heq⟩ := hregistry r
    rw [heq, Registry.borrow_eq_ok_iff_slot] at hborrow
    simp [Registry.new] at hborrow
  · obtain ⟨identity, heq⟩ := hregistry r
    rw [heq] at hreleased
    simp [Registry.new, Registry.released] at hreleased

variable (identities : List UInt64) (bridges : List Bridge) (commands : List Command)

theorem after_consistent :
    (((start identities bridges).after commands).account
      ((start identities bridges).dealings {} commands)).Consistent := by
  have hstart := start_consistent identities bridges
  exact (after_run hstart commands).consistent hstart

/-- No registry is added or removed. -/
theorem size_registries_after :
    ((start identities bridges).after commands).holdings.registries.size = identities.length := by
  refine (after_run (start_consistent identities bridges) commands).size_eq.trans ?_
  show (identities.map Registry.new).toArray.size = _
  simp

theorem after_exclusive
    (inRange : ((start identities bridges).after commands).holdings.InRange) :
    (((start identities bridges).after commands).account
      ((start identities bridges).dealings {} commands)).Exclusive := by
  have hstart := start_consistent identities bridges
  exact (after_run hstart commands).exclusive hstart (start_exclusive identities bridges) inRange

/-! ## §2 Payloads that exist -/

/-- An item is kept by an object variable or by a live entry. -/
def ItemKept (s : Session) (ref : ItemRef) : Prop :=
  (∃ name, (name, { ref, held := true }) ∈ s.objects.entries) ∨
    ∃ r handle, (s.holdings.registry r).borrow handle = .ok (.item ref)

/-- A payload is in a payload variable, in a slot of a status variable, or in a slot of a status
that is a kept item. -/
inductive PayloadExists (s : Session) (payload : Payload) : Prop where
  | named {name : String} (hname : (name, payload) ∈ s.payloads.entries)
  | inStatus {name : String} {status : Status} (hname : (name, status) ∈ s.statuses.entries)
      (hslot : payload ∈ status.payloads)
  | inItem {ref : ItemRef} {status : Status}
      (hitem : s.holdings.items.content? ref = some (.status status)) (hkept : s.ItemKept ref)
      (hslot : payload ∈ status.payloads)

/-! ## §3 Owners that are kept -/

variable {identities bridges commands} {s : Session} {d : Dealings}

/-- An entry in the table is borrowed by its handle. -/
theorem exists_borrow {registry : Registry Object} (hrange : registry.InRange) {i : Nat}
    {slot : Slot Object} {object : Object} (hslot : registry.slots[i]? = some slot)
    (hobject : slot.object = some object) : ∃ handle, registry.borrow handle = .ok object := by
  obtain ⟨hlt, _⟩ := Array.getElem?_eq_some_iff.mp hslot
  -- In range, the number of the slot fits into a handle.
  have hi : i.toUInt64.toNat = i :=
    UInt64.toNat_ofNat_of_lt' (hlt.trans_le hrange.slots_le)
  refine ⟨⟨registry.identity, i.toUInt64, slot.generation⟩, ?_⟩
  rw [Registry.borrow_eq_ok_iff_slot]
  refine ⟨rfl, ?_⟩
  rw [hi, hslot, ← hobject]

/-- An item in an occupied slot is in a live entry. -/
theorem itemKept_of_placed (hrange : s.holdings.InRange) {ref : ItemRef}
    (hplaced : s.ItemPlaced ref) : s.ItemKept ref := by
  rcases hplaced with hvariable | ⟨r, i, slot, hslot, hobject⟩
  · exact Or.inl hvariable
  · obtain ⟨handle, hborrow⟩ := exists_borrow (hrange r) hslot hobject
    exact Or.inr ⟨r, handle, hborrow⟩

theorem itemPlaced_of_kept {ref : ItemRef} (hkept : s.ItemKept ref) : s.ItemPlaced ref := by
  rcases hkept with hvariable | ⟨r, handle, hborrow⟩
  · exact Or.inl hvariable
  · obtain ⟨_, hslot⟩ := (Registry.borrow_eq_ok_iff_slot _ _ _).mp hborrow
    exact Or.inr ⟨r, _, _, hslot, rfl⟩

/-- A payload that refers to an owner exists. -/
theorem exists_payload_of_refers (hrange : s.holdings.InRange) {o : OwnerRef}
    (hrefers : s.Refers o) : ∃ payload, s.PayloadExists payload ∧ payload.owner = some o := by
  cases hrefers with
  | named hname howner => exact ⟨_, .named hname, howner⟩
  | inStatus hname hslot howner => exact ⟨_, .inStatus hname hslot, howner⟩
  | inItem hitem hplaced hslot howner =>
    exact ⟨_, .inItem hitem (itemKept_of_placed hrange hplaced) hslot, howner⟩

/-- The owner of a payload that exists is referred to. -/
theorem refers_of_payload {payload : Payload} (hexists : s.PayloadExists payload) {o : OwnerRef}
    (howner : payload.owner = some o) : s.Refers o := by
  cases hexists with
  | named hname => exact .named hname howner
  | inStatus hname hslot => exact .inStatus hname hslot howner
  | inItem hitem hkept hslot => exact .inItem hitem (itemPlaced_of_kept hkept) hslot howner

/-- An owner that is kept is held by a payload that exists. -/
theorem exists_payload_of_owner (hconsistent : (s.account d).Consistent)
    (hrange : s.holdings.InRange) {o : OwnerRef} {duty : Duty}
    (hduty : s.holdings.owners.content? o = some duty) :
    ∃ payload, s.PayloadExists payload ∧ payload.owner = some o :=
  exists_payload_of_refers hrange (refers_of_content hconsistent hduty)

/-- The owner of a payload that exists is kept. -/
theorem owner_of_payload (hconsistent : (s.account d).Consistent) {payload : Payload}
    (hexists : s.PayloadExists payload) {o : OwnerRef} (howner : payload.owner = some o) :
    ∃ duty, s.holdings.owners.content? o = some duty :=
  content_of_refers (besides_nothing hconsistent) (refers_of_payload hexists howner)

/-! ## §4 Live entries after a script -/

/-- A payload that exists holds the owner of an entry. -/
def Owned (s : Session) (r : Nat) (handle : Handle) : Prop :=
  ∃ payload o, s.PayloadExists payload ∧ payload.owner = some o ∧
    s.holdings.owners.content? o = some (.entry r handle)

theorem contains_iff {registry : Registry Object} {handle : Handle} :
    registry.contains handle = true ↔ ∃ object, registry.borrow handle = .ok object := by
  unfold Registry.contains
  cases registry.borrow handle <;> simp [Except.toBool]

theorem kept_iff (hconsistent : (s.account d).Consistent) (hrange : s.holdings.InRange) (r : Nat)
    (handle : Handle) :
    (s.account d).Kept r handle ↔ (r, handle) ∈ d.deposits ∨ s.Owned r handle := by
  refine or_congr_right ⟨?_, ?_⟩
  · rintro ⟨o, howns⟩
    obtain ⟨payload, hexists, howner⟩ := exists_payload_of_owner hconsistent hrange howns
    exact ⟨payload, o, hexists, howner, howns⟩
  · rintro ⟨payload, o, _, _, howns⟩
    exact ⟨o, howns⟩

/-- After a script, an entry is live exactly if it was stored directly or a payload that exists
holds its owner, and it was not given up directly.  A live entry holds the object it was stored
with. -/
theorem live_after_iff (identities : List UInt64) (bridges : List Bridge)
    (commands : List Command)
    (inRange : ((start identities bridges).after commands).holdings.InRange) (r : Nat)
    (handle : Handle) :
    ((((start identities bridges).after commands).holdings.registry r).contains handle = true ↔
      ((r, handle) ∈ ((start identities bridges).dealings {} commands).deposits ∨
        ((start identities bridges).after commands).Owned r handle) ∧
      (r, handle) ∉ ((start identities bridges).dealings {} commands).withdrawals) ∧
    ((((start identities bridges).after commands).holdings.registry r).contains handle = true →
      ∀ object,
        (((start identities bridges).after commands).holdings.registry r).borrow handle
            = .ok object ↔
          .stored handle object
            ∈ (((start identities bridges).after commands).holdings.registry r).journal) := by
  have hconsistent := after_consistent identities bridges commands
  have hexclusive := after_exclusive identities bridges commands inRange
  rw [← kept_iff hconsistent inRange, contains_iff]
  constructor
  · constructor
    · rintro ⟨object, hborrow⟩
      exact ((hexclusive.borrow_iff r handle object).mp hborrow).2
    · rintro ⟨hkept, hlive⟩
      -- What someone keeps was stored.
      obtain ⟨object, hstored⟩ := Registry.exists_stored_of_mem_issued
        (hexclusive.mem_issued_of_kept hkept)
      exact ⟨object, (hexclusive.borrow_iff r handle object).mpr ⟨hstored, hkept, hlive⟩⟩
  · rintro ⟨found, hborrow⟩ object
    obtain ⟨_, hkept, hlive⟩ := (hexclusive.borrow_iff r handle found).mp hborrow
    refine (hexclusive.borrow_iff r handle object).trans ⟨And.left, fun hstored => ?_⟩
    exact ⟨hstored, hkept, hlive⟩

/-- A status that owns an entry is stored in another registry, and only its entry keeps it.  The
entry of a second owner is given up behind its back, and the slot is used again. -/
def nested : List Command :=
  [.object (.new "inner" (.number 5)),
    .object (.mint "inner" "p" 0),
    .object (.mint "inner" "q" 0),
    .status (.new "s" .aborted ""),
    .status (.setPayload "s" "key" "p"),
    .payload (.drop "p"),
    .object (.new "outer" (.status "s")),
    .object (.store "outer" "h" 1),
    .object (.drop "outer"),
    .object (.bindHandle "g" ⟨7, 1, 1⟩),
    .object (.release "g" 0),
    .object (.store "inner" "g" 0)]

theorem live_after_iff_nested :
    ((start [7, 9] []).after nested).holdings.InRange ∧
      ((start [7, 9] []).after nested).Owned 0 ⟨7, 0, 1⟩ ∧
      (((start [7, 9] []).after nested).holdings.registry 0).contains ⟨7, 1, 1⟩ ≠ true ∧
      (((start [7, 9] []).after nested).holdings.registry 0).borrow ⟨7, 1, 2⟩
        = .ok (.item ⟨0⟩) := by
  have inRange : ((start [7, 9] []).after nested).holdings.InRange :=
    Holdings.InRange.of_short (by decide +kernel)
  have hiff := live_after_iff [7, 9] [] nested inRange 0
  refine ⟨inRange, ?_, fun hcontains => ?_, ?_⟩
  · obtain ⟨hkept, _⟩ := (hiff ⟨7, 0, 1⟩).1.mp (by decide +kernel)
    exact hkept.resolve_left (by decide +kernel)
  · -- The handle of the second owner was given up directly.
    obtain ⟨_, hlive⟩ := (hiff ⟨7, 1, 1⟩).1.mp hcontains
    exact hlive (by decide +kernel)
  · have hcontains := (hiff ⟨7, 1, 2⟩).1.mpr ⟨Or.inl (by decide +kernel), by decide +kernel⟩
    exact ((hiff ⟨7, 1, 2⟩).2 hcontains (.item ⟨0⟩)).mpr (by decide +kernel)

end Session

end Ferry.Script
