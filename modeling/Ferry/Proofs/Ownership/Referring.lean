import Ferry.Proofs.Ownership.Scripts

/-!
# What refers to an owner

An owner is referred to by payloads: by payload variables, by slots of status variables, and by
slots of statuses that are items.  Such an item is in an object variable or in an occupied slot of
a registry.  Nothing else holds an owner, so an owner is kept exactly as long as some payload refers
to it.

Main statement: `refers_iff`.

## Sections

1. Who holds what.
2. Items.
3. Owners.
-/

namespace Ferry.Script.Session

open Account

/-! ## §1 Who holds what -/

theorem mem_payload_shares {payload : Payload} {o : OwnerRef} :
    Share.owner o ∈ payload.shares ↔ payload.owner = some o := by
  simp [Payload.shares]

theorem mem_status_shares {status : Status} {o : OwnerRef} :
    Share.owner o ∈ status.shares ↔ ∃ payload ∈ status.payloads, payload.owner = some o := by
  simp [Status.shares, Status.owners]

/-- Entries hold shares of objects only. -/
theorem heldByEntries_owner (h : Holdings) (o : OwnerRef) : h.heldByEntries (.owner o) = 0 := by
  by_contra hne
  obtain ⟨_, _, _, _, _, _, _, heq⟩ :=
    Holdings.exists_entry_of_heldByEntries_pos (Nat.pos_of_ne_zero hne)
  cases heq

/-- Items hold shares of owners only. -/
theorem heldByItems_object (h : Holdings) (object : Object) :
    h.heldByItems (.object object) = 0 := by
  by_contra hne
  obtain ⟨ref, item, _, hpos⟩ := Pool.exists_of_weight_pos (Nat.pos_of_ne_zero hne)
  have hmem := List.count_pos_iff.mp hpos
  -- Of the items only statuses hold shares, and these are of owners.
  cases item with
  | status status => simp [Item.shares, Status.shares] at hmem
  | number _ | text _ | bytes _ => simp [Item.shares] at hmem

/-- Exceptions hold shares of exceptions only. -/
theorem heldByExceptions_eq_zero (h : Holdings) {s : Share} (hs : ∀ e, s ≠ .exception e) :
    h.heldByExceptions s = 0 := by
  by_contra hne
  obtain ⟨ref, node, _, hpos⟩ := Pool.exists_of_weight_pos (Nat.pos_of_ne_zero hne)
  obtain ⟨e, _, heq⟩ := List.mem_map.mp (List.count_pos_iff.mp hpos)
  exact hs e heq.symm

variable {s : Session} {d : Dealings} {extra : Multiset Share}

/-- Between two commands nothing is in hand besides the variables. -/
theorem besides_nothing (hconsistent : (s.account d).Consistent) :
    Consistent ⟨s.holdings, 0 + s.shares, d⟩ := by
  rw [zero_add]
  exact hconsistent

/-! ## §2 Items -/

/-- An item is in an object variable or in an occupied slot of a registry. -/
def ItemPlaced (s : Session) (ref : ItemRef) : Prop :=
  (∃ name, (name, { ref, held := true }) ∈ s.objects.entries) ∨
    ∃ (r i : Nat) (slot : Slot Object),
      (s.holdings.registry r).slots[i]? = some slot ∧ slot.object = some (.item ref)

/-- An item that is alive is in some place, unless it is only in hand besides the variables. -/
theorem itemPlaced_of_besides (hconsistent : Consistent ⟨s.holdings, extra + s.shares, d⟩)
    {ref : ItemRef} {item : Item} (hitem : s.holdings.items.content? ref = some item) :
    Share.item ref ∈ extra ∨ s.ItemPlaced ref := by
  have hpos := hconsistent.items_attended ref item hitem
  have hbalance := hconsistent.balance (.item ref)
  simp only [Holdings.holders, Holdings.held, heldByItems_object, Multiset.count_add,
    heldByExceptions_eq_zero s.holdings (s := .item ref) (by simp)] at hpos hbalance
  by_cases hextra : Share.item ref ∈ extra
  · exact Or.inl hextra
  have hnone := Multiset.count_eq_zero.mpr hextra
  -- The holders are entries and variables: items and exceptions hold no items.
  by_cases hentry : 0 < s.holdings.heldByEntries (.item ref)
  · obtain ⟨r, i, slot, object, _, hslot, hobject, heq⟩ :=
      Holdings.exists_entry_of_heldByEntries_pos hentry
    cases heq
    exact Or.inr (Or.inr ⟨r, i, slot, hslot, hobject⟩)
  · have hmem : Share.item ref ∈ s.shares := Multiset.count_pos.mp (by omega)
    -- Only object variables hold shares of items.
    rcases mem_shares.mp hmem with ⟨_, payload, _, hshare⟩ | ⟨_, status, _, hshare⟩ |
      ⟨_, e, _, heq⟩ | ⟨name, found, hname, heq⟩
    · simp [Payload.shares] at hshare
    · simp [Status.shares] at hshare
    · cases heq
    · cases heq
      exact Or.inr (Or.inl ⟨name, hname⟩)

/-! ## §3 Owners -/

/-- A payload refers to an owner.  It is in a payload variable, in a slot of a status variable, or
in a slot of a status that is an item in some place. -/
inductive Refers (s : Session) (o : OwnerRef) : Prop where
  | named {name : String} {payload : Payload} (hname : (name, payload) ∈ s.payloads.entries)
      (howner : payload.owner = some o)
  | inStatus {name : String} {status : Status} {payload : Payload}
      (hname : (name, status) ∈ s.statuses.entries) (hslot : payload ∈ status.payloads)
      (howner : payload.owner = some o)
  | inItem {ref : ItemRef} {status : Status} {payload : Payload}
      (hitem : s.holdings.items.content? ref = some (.status status))
      (hplaced : s.ItemPlaced ref) (hslot : payload ∈ status.payloads)
      (howner : payload.owner = some o)

/-- An owner that is kept is referred to, unless it is in hand besides the variables.  What items are
in hand besides must be in some place as well. -/
theorem refers_of_besides (hconsistent : Consistent ⟨s.holdings, extra + s.shares, d⟩)
    (hplaced : ∀ ref, Share.item ref ∈ extra → s.ItemPlaced ref) {o : OwnerRef} {duty : Duty}
    (hduty : s.holdings.owners.content? o = some duty) (hextra : Share.owner o ∉ extra) :
    s.Refers o := by
  have hpos := hconsistent.owners_attended o duty hduty
  have hbalance := hconsistent.balance (.owner o)
  have hnone := Multiset.count_eq_zero.mpr hextra
  simp only [Holdings.holders, Holdings.held, heldByEntries_owner, Multiset.count_add,
    heldByExceptions_eq_zero s.holdings (s := .owner o) (by simp)] at hpos hbalance
  -- The holders are items and variables: entries and exceptions hold no owners.
  by_cases hheld : 0 < s.holdings.heldByItems (.owner o)
  · obtain ⟨ref, item, hitem, hcount⟩ := Pool.exists_of_weight_pos hheld
    have hmem := List.count_pos_iff.mp hcount
    cases item with
    | status status =>
      obtain ⟨payload, hslot, howner⟩ := mem_status_shares.mp hmem
      have hitemPlaced := (itemPlaced_of_besides hconsistent hitem).elim (hplaced ref) id
      exact .inItem hitem hitemPlaced hslot howner
    | number _ | text _ | bytes _ => simp [Item.shares] at hmem
  · have hmem : Share.owner o ∈ s.shares := Multiset.count_pos.mp (by omega)
    rcases mem_shares.mp hmem with ⟨_, payload, hname, hshare⟩ | ⟨_, status, hname, hshare⟩ |
      ⟨_, e, _, heq⟩ | ⟨_, ref, _, heq⟩
    · exact .named hname (mem_payload_shares.mp hshare)
    · obtain ⟨payload, hslot, howner⟩ := mem_status_shares.mp hshare
      exact .inStatus hname hslot howner
    · cases heq
    · cases heq

/-- An owner that is kept is referred to. -/
theorem refers_of_content (hconsistent : (s.account d).Consistent) {o : OwnerRef} {duty : Duty}
    (hduty : s.holdings.owners.content? o = some duty) : s.Refers o := by
  refine refers_of_besides (besides_nothing hconsistent) (fun _ hmem => ?_) hduty
    (Multiset.notMem_zero _)
  exact absurd hmem (Multiset.notMem_zero _)

/-- An owner that is referred to is kept, whatever is in hand besides the variables. -/
theorem content_of_refers (hconsistent : Consistent ⟨s.holdings, extra + s.shares, d⟩)
    {o : OwnerRef} (hrefers : s.Refers o) :
    ∃ duty, s.holdings.owners.content? o = some duty := by
  have hhand : Share.owner o ∈ s.shares → 0 < s.holdings.holders (.owner o) := fun hmem =>
    hconsistent.holders_pos (Multiset.mem_add.mpr (Or.inr hmem))
  have hholders : 0 < s.holdings.holders (.owner o) := by
    cases hrefers with
    | named hname howner =>
      exact hhand (mem_shares.mpr (Or.inl ⟨_, _, hname, mem_payload_shares.mpr howner⟩))
    | inStatus hname hslot howner =>
      exact hhand (mem_shares.mpr
        (Or.inr (Or.inl ⟨_, _, hname, mem_status_shares.mpr ⟨_, hslot, howner⟩⟩)))
    | inItem hitem _ hslot howner =>
      exact hconsistent.holders_pos_of_item hitem (mem_status_shares.mpr ⟨_, hslot, howner⟩)
  exact Pool.exists_content_of_holders_pos hholders

/-- An owner is kept exactly as long as a payload refers to it. -/
theorem refers_iff (hconsistent : (s.account d).Consistent) (o : OwnerRef) :
    s.Refers o ↔ ∃ duty, s.holdings.owners.content? o = some duty := by
  constructor
  · exact content_of_refers (besides_nothing hconsistent)
  · rintro ⟨duty, hduty⟩
    exact refers_of_content hconsistent hduty

end Ferry.Script.Session
