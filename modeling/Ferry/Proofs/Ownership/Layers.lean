import Ferry.Proofs.Ownership.Exclusive

/-!
# Layers of items

A status that is an item was complete when it was made: its payloads, and the entries that their
owners answer for, were there before it, and so were the objects of these entries.  Items are
numbered in the order of their making, so what a status keeps alive has smaller numbers.

Main statement: a run in range keeps the items layered (`Run.layered`).
-/

namespace Ferry.Account

/-- What the payloads of a status keep alive is older than the status. -/
def Layered (a : Account) : Prop :=
  ∀ ref status o r handle older, a.holdings.items.content? ref = some (.status status) →
    .owner o ∈ status.shares → a.Owns o r handle →
    (a.holdings.registry r).borrow handle = .ok (.item older) → older.index < ref.index

variable {a a' : Account}

/-- Items, owners and entries may go. -/
theorem Layered.of_sub (ha : a.Layered)
    (hitems : ∀ ref item, a'.holdings.items.content? ref = some item →
      a.holdings.items.content? ref = some item)
    (howns : ∀ o r handle, a'.Owns o r handle → a.Owns o r handle)
    (hborrow : ∀ r handle object, (a'.holdings.registry r).borrow handle = .ok object →
      (a.holdings.registry r).borrow handle = .ok object) :
    a'.Layered := fun ref status o r handle older hitem hmem howner hfound =>
  ha ref status o r handle older (hitems ref _ hitem) hmem (howns o r handle howner)
    (hborrow r handle _ hfound)

/-- A new entry is kept alive by no status that was there before. -/
theorem Layered.of_stored (ha : a.Layered) (hexclusive : a.Exclusive) {r : Nat} {handle : Handle}
    {object : Object} {x : Registry Object} {index : Nat} (hr : r < a.holdings.registries.size)
    (hstored : Registry.Stored (a.holdings.registry r) object x handle index) (hrange : x.InRange)
    (hregistries : a'.holdings.registries = (a.holdings.setRegistry r x).registries)
    (hitems : a'.holdings.items = a.holdings.items)
    (howns : ∀ ref status o r' other, a.holdings.items.content? ref = some (.status status) →
      .owner o ∈ status.shares → a'.Owns o r' other → a.Owns o r' other) :
    a'.Layered := by
  intro ref status o r' other older hitem hmem howner hborrow
  rw [hitems] at hitem
  -- An owner in an older status was there before, and so was its entry.
  have hbefore := howns ref status o r' other hitem hmem howner
  rw [Holdings.registry_eq hregistries,
    Holdings.borrow_stored hr hstored hrange.slots_le] at hborrow
  rcases hborrow with ⟨rfl, rfl, _⟩ | hborrow
  · exact absurd (hexclusive.owned_issued o r' other hbefore)
      (hstored.not_mem_issued hrange (hexclusive.faithful r'))
  · exact ha ref status o r' other older hitem hmem hbefore hborrow

/-- The item of a live entry has its place in the pool. -/
theorem Consistent.index_lt_of_borrow (ha : a.Consistent) {r : Nat} {handle : Handle}
    {ref : ItemRef} (hborrow : (a.holdings.registry r).borrow handle = .ok (.item ref)) :
    ref.index < a.holdings.items.cells.size := by
  obtain ⟨item, hitem⟩ := Pool.exists_content_of_holders_pos (ha.holders_pos_of_borrow hborrow)
  obtain ⟨cell, hcell, _⟩ := Pool.content?_eq_some_iff.mp hitem
  exact Pool.index_lt_of_cell? hcell

/-- A new item is younger than all that it keeps alive. -/
theorem layered_newItem {h : Holdings} {rest : Multiset Share} {d : Dealings} {item : Item}
    (hconsistent : Consistent ⟨h, (item.shares : Multiset Share) + rest, d⟩)
    (ha : Layered ⟨h, (item.shares : Multiset Share) + rest, d⟩) :
    Layered ⟨(h.newItem item).1, {Share.item (h.newItem item).2} + rest, d⟩ := by
  intro ref status o r handle older hitem hmem howner hborrow
  change (h.items.insert item).1.content? ref = _ at hitem
  rw [Pool.content?_insert] at hitem
  split at hitem
  · rename_i heq
    subst heq
    exact hconsistent.index_lt_of_borrow hborrow
  · exact ha ref status o r handle older hitem hmem howner hborrow

theorem layered_letGo {h : Holdings} {rest : Multiset Share} {d : Dealings} {s : Share}
    (hconsistent : Consistent ⟨h, {s} + rest, d⟩) (ha : Layered ⟨h, {s} + rest, d⟩) :
    Layered ⟨(h.letGo s).1, ((h.letGo s).2 : Multiset Share) + rest, d⟩ := by
  cases s with
  | item ref =>
    exact ha.of_sub (fun _ _ hitem => Pool.content?_of_release hitem) (fun _ _ _ howner => howner)
      (fun _ _ _ hborrow => hborrow)
  | exception _ =>
    exact ha.of_sub (fun _ _ hitem => hitem) (fun _ _ _ howner => howner)
      (fun _ _ _ hborrow => hborrow)
  | owner o =>
    obtain ⟨_, hitems, _⟩ := Holdings.letGo_owner_pools h o
    refine ha.of_sub (fun ref item hitem => hitems ▸ hitem)
      (fun _ _ _ howner => Holdings.owners_letGo_sub h (.owner o) howner)
      (fun r handle object hborrow => ?_)
    -- At most one entry goes, so what is live now was live before.
    rcases Holdings.letGo_owner_cases hconsistent.tidy o with ⟨heq, _⟩ |
      ⟨r', other, x, gone, _, _, hr, hvacated, heq⟩
    · rwa [Holdings.registry_eq heq] at hborrow
    · rw [Holdings.registry_eq (h := h.setRegistry r' x) heq] at hborrow
      exact ((Holdings.borrow_vacated hr hvacated r handle object).mp hborrow).2

theorem Step.layered (hstep : Step a a') (hconsistent : a.Consistent) (hexclusive : a.Exclusive)
    (ha : a.Layered) (hrange : a'.holdings.InRange) : a'.Layered := by
  cases hstep with
  | @share h hand d s _ =>
    refine ha.of_sub (fun ref item hitem => ?_) (fun o r handle howner => ?_)
      (fun r handle object hborrow => ?_)
    · rwa [Holdings.content?_items_retain] at hitem
    · unfold Owns at *
      rwa [Holdings.content?_owners_retain] at howner
    · rwa [Holdings.registry_eq (Holdings.registries_retain h s)] at hborrow
  | letGo s => exact layered_letGo hconsistent ha
  | newItem item => exact layered_newItem hconsistent ha
  | @newTally h rest d counter =>
    exact ha.of_sub (fun _ _ hitem => hitem)
      (fun o r handle howner => (owns_newTally h _ rest d d counter o r handle).mp howner)
      (fun _ _ _ hborrow => hborrow)
  | newCounter | newNode _ | relink _ _ _ =>
    exact ha.of_sub (fun _ _ hitem => hitem) (fun _ _ _ howner => howner)
      (fun _ _ _ hborrow => hborrow)
  | @mint h rest d r hr object =>
    obtain ⟨index, hstored⟩ := Registry.store_stored (hconsistent.tidy r) object
    refine ha.of_stored hexclusive hr hstored (Holdings.inRange_of_setRegistry hr hrange) rfl rfl
      fun ref status o r' other hitem hmem howner => ?_
    rcases (owns_newOwner (h.setRegistry r _) _ rest d d _ o r' other).mp howner with
      ⟨rfl, _⟩ | howner
    · -- An owner that was not made yet is held by no item.
      have hpos := hconsistent.holders_pos_of_item hitem hmem
      obtain ⟨duty, hduty⟩ := Pool.exists_content_of_holders_pos hpos
      change h.owners.content? (h.owners.insert (.entry r (h.store r object).2)).2 = _ at hduty
      rw [Pool.content?, Pool.cell?_fresh] at hduty
      cases hduty
    · exact howner
  | @deposit h rest d r hr object =>
    obtain ⟨index, hstored⟩ := Registry.store_stored (hconsistent.tidy r) object
    exact ha.of_stored hexclusive hr hstored (Holdings.inRange_of_setRegistry hr hrange) rfl rfl
      fun _ _ _ _ _ _ _ howner => howner
  | @withdraw h rest d r handle x object hfetch =>
    obtain ⟨hr, hvacated⟩ := Holdings.vacated_of_fetch (hconsistent.tidy r) hfetch
    refine ha.of_sub (fun _ _ hitem => hitem) (fun _ _ _ howner => howner)
      fun r' other found hborrow => ?_
    exact ((Holdings.borrow_vacated hr hvacated r' other found).mp hborrow).2

/-- A run in range keeps the items layered. -/
theorem Run.layered (hrun : Run a a') (hconsistent : a.Consistent) (hexclusive : a.Exclusive)
    (ha : a.Layered) (hrange : a'.holdings.InRange) : a'.Layered := by
  induction hrun with
  | refl => exact ha
  | tail hfirst hlast ih =>
    have hmid := Run.consistent hfirst hconsistent
    have hrange' := hlast.inRange hmid hrange
    exact hlast.layered hmid (Run.exclusive hfirst hconsistent hexclusive hrange') (ih hrange')
      hrange

end Ferry.Account
