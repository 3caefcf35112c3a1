import Ferry.Proofs.Ownership.Honoured
import Ferry.Proofs.Ownership.Tenure

/-!
# What lasts with an owner

As long as an owner is kept and nobody gives its entry up directly, the entry is live and holds the
object that it held.  An object that an entry holds keeps its content.  So a slot whose payload has
the owner is read with the same result before and after any run that keeps the owner, and an entry
is given up just when its owner goes.

Main statements: `Run.borrow_of_kept`, `Run.inspect_of_kept` and `Run.released_iff`.

## Sections

1. Items.
2. Entries.
3. Readings.
-/

namespace Ferry.Account

variable {a a' : Account} {o : OwnerRef} {r : Nat} {handle : Handle} {object : Object}

/-! ## §1 Items -/

/-- No step changes the content of an item. -/
theorem Step.items_grow (hstep : Step a a') : a.holdings.items.Grows a'.holdings.items := by
  cases hstep with
  | share s _ =>
    cases s with
    | item ref => exact Pool.grows_retain _ ref
    | owner _ | exception _ => exact Pool.Grows.refl _
  | @letGo h rest d s =>
    cases s with
    | item ref => exact Pool.grows_release _ ref
    | owner ref =>
      have hitems : (h.letGo (.owner ref)).1.items = h.items := (Holdings.letGo_owner_pools h ref).2.1
      rw [hitems]
      exact Pool.Grows.refl _
    | exception _ => exact Pool.Grows.refl _
  | newItem item => exact Pool.grows_insert _ item
  | newTally _ | newCounter | newNode _ | relink _ _ _ | mint _ _ | deposit _ _ | withdraw _ =>
    exact Pool.Grows.refl _

theorem Run.items_grow (hrun : Run a a') : a.holdings.items.Grows a'.holdings.items :=
  hrun.preserves (P := fun x => a.holdings.items.Grows x.holdings.items)
    (fun _ _ hstep hgrows => hgrows.trans hstep.items_grow) (Pool.Grows.refl _)

/-- What has a holder after a run and was alive before it is of the same type. -/
theorem Run.typeOf?_of_holders (hrun : Run a a') {type : ObjectType}
    (htype : a.holdings.typeOf? object = some type)
    (hholders : 0 < a'.holdings.holders (.object object)) :
    a'.holdings.typeOf? object = some type := by
  cases object with
  | exception e => exact htype
  | item ref =>
    obtain ⟨item, hitem, heq⟩ := Option.map_eq_some_iff.mp htype
    obtain ⟨kept, hkept⟩ := Pool.exists_content_of_holders_pos hholders
    -- An item that is kept has the content it had.
    have hsame := hrun.items_grow.content ref kept (Pool.index_lt_of_content hitem) hkept
    rw [hitem] at hsame
    cases hsame
    exact Option.map_eq_some_iff.mpr ⟨item, hkept, heq⟩

/-! ## §2 Entries -/

/-- An owner that is kept has the duty it had. -/
theorem Run.owns_of_kept (hrun : Run a a') (howns : a.Owns o r handle) {duty : Duty}
    (hkept : a'.holdings.owners.content? o = some duty) : a'.Owns o r handle := by
  have hsame := hrun.owners_grow.content o duty (Pool.index_lt_of_content howns) hkept
  have heq : duty = .entry r handle := Option.some.inj (hsame.symm.trans howns)
  subst heq
  exact hkept

/-- As long as its owner is kept, an entry that nobody gives up directly holds what it held. -/
theorem Run.borrow_of_kept (hrun : Run a a') (ha : a.Consistent) (hexclusive : a.Exclusive)
    (hrange : a'.holdings.InRange) (hdealings : a'.dealings = a.dealings)
    (howns : a.Owns o r handle) (hborrow : (a.holdings.registry r).borrow handle = .ok object)
    {duty : Duty} (hkept : a'.holdings.owners.content? o = some duty) :
    (a'.holdings.registry r).borrow handle = .ok object := by
  obtain ⟨hstored, _, hlive⟩ := (hexclusive.borrow_iff r handle object).mp hborrow
  refine ((hrun.exclusive ha hexclusive hrange).borrow_iff r handle object).mpr ⟨?_, ?_, ?_⟩
  · exact (hrun.extends ha r).journal_suffix.subset hstored
  · exact Or.inr ⟨o, hrun.owns_of_kept howns hkept⟩
  · rw [hdealings]
    exact hlive

/-- An entry that was live is given up just when its owner goes. -/
theorem Run.released_iff (hrun : Run a a') (ha : a.Consistent) (hexclusive : a.Exclusive)
    (hrange : a'.holdings.InRange) (hdealings : a'.dealings = a.dealings)
    (howns : a.Owns o r handle) (hborrow : (a.holdings.registry r).borrow handle = .ok object) :
    handle ∈ (a'.holdings.registry r).released ↔ a'.holdings.owners.content? o = none := by
  constructor
  · intro hreleased
    refine Option.eq_none_iff_forall_ne_some.mpr fun duty hkept => ?_
    have hlive := hrun.borrow_of_kept ha hexclusive hrange hdealings howns hborrow hkept
    have hfaithful := (hrun.exclusive ha hexclusive hrange).faithful r
    exact ((hfaithful.borrow_iff handle object).mp hlive).2 hreleased
  · intro hgone
    refine (hrun.owns_or_released ha hexclusive hrange howns).resolve_left fun hkept => ?_
    unfold Owns at hkept
    rw [hgone] at hkept
    cases hkept

/-! ## §3 Readings -/

/-- As long as its owner is kept, a payload is honoured for the same object, and the object is of
the same type. -/
theorem Run.inspect_of_kept (hrun : Run a a') (ha : a.Consistent) (hexclusive : a.Exclusive)
    (hdistinct : a.holdings.Distinct) (hrange : a'.holdings.InRange)
    (hdealings : a'.dealings = a.dealings) {payload : Payload} {type : ObjectType}
    (hinspect : a.holdings.inspect r payload type = .ok object) (howner : payload.owner = some o)
    {duty : Duty} (hkept : a'.holdings.owners.content? o = some duty) :
    a'.holdings.inspect r payload type = .ok object := by
  obtain ⟨⟨handle, o', hparse, hidentity, hborrow, howner', hentry⟩, htype⟩ :=
    Holdings.inspect_eq_ok_iff.mp hinspect
  have hsame : o' = o := Option.some.inj (howner'.symm.trans howner)
  subst hsame
  have howns := hexclusive.owns_of_borrow hdistinct hborrow hentry
  have hlive := hrun.borrow_of_kept ha hexclusive hrange hdealings howns hborrow hkept
  have hentry' : a'.holdings.entryOf? o' = some handle := by
    have howns' : a'.holdings.owners.content? o' = _ := hrun.owns_of_kept howns hkept
    rw [Holdings.entryOf?, howns', Option.bind_some, Duty.handle?]
  refine Holdings.inspect_eq_ok_iff.mpr ⟨⟨handle, o', hparse, ?_, hlive, howner, hentry'⟩, ?_⟩
  · rw [(hrun.extends ha r).identity_eq]
    exact hidentity
  -- The entry that is live holds a share of the object.
  · have hholders := (hrun.consistent ha).holders_pos_of_borrow hlive
    have htypes := hrun.typeOf?_of_holders (Holdings.hasType_iff.mp htype) hholders
    exact Holdings.hasType_iff.mpr htypes

end Ferry.Account
