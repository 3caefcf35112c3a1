import Ferry.Holdings.Token
import Ferry.Proofs.Ownership.Counts
import Mathlib.Algebra.Order.Group.Multiset
import Mathlib.Logic.Relation

/-!
# Accounts of shares

An account sets the holdings beside the shares that are held outside, *in hand*, and beside what was
dealt with the registries directly.  It is consistent if every count is the number of the shares in
hand and in the holdings together.

Whatever is done with the holdings comes down to ten elementary steps.  An invariant of these steps
is an invariant of every operation, of every command, and of every script.

Main statement: a run of steps keeps an account consistent (`Run.consistent`).

## Sections

1. Accounts.
2. The elementary steps.
3. Steps keep accounts consistent.
4. Runs.
-/

namespace Ferry

/-! ## §1 Accounts -/

/-- The entries that were stored and given up by a registry's own operations. -/
structure Dealings where
  /-- The handles that storing returned, each with the place of its registry. -/
  deposits : List (Nat × Handle) := []
  /-- The handles whose entries were given up. -/
  withdrawals : List (Nat × Handle) := []

namespace Dealings

/-- Notes that an object was stored. -/
def deposit (d : Dealings) (r : Nat) (handle : Handle) : Dealings :=
  { d with deposits := (r, handle) :: d.deposits }

/-- Notes that an entry was given up. -/
def withdraw (d : Dealings) (r : Nat) (handle : Handle) : Dealings :=
  { d with withdrawals := (r, handle) :: d.withdrawals }

end Dealings

/-- The holdings, the shares that are held outside, and what was dealt directly. -/
structure Account where
  holdings : Holdings
  hand : Multiset Share
  dealings : Dealings

namespace Account

/-- Every count is the number of the shares there are. -/
structure Consistent (a : Account) : Prop where
  tidy : ∀ r, (a.holdings.registry r).Tidy
  balance : ∀ s, a.holdings.holders s = a.hand.count s + a.holdings.held s
  owners_attended : a.holdings.owners.Attended
  items_attended : a.holdings.items.Attended
  exceptions_attended : a.holdings.exceptions.Attended

/-- What is in hand has a holder. -/
theorem Consistent.holders_pos {a : Account} (ha : a.Consistent) {s : Share} (hs : s ∈ a.hand) :
    0 < a.holdings.holders s := by
  have hbalance := ha.balance s
  have hcount := Multiset.count_pos.mpr hs
  omega

/-- What the holdings hold has a holder. -/
theorem Consistent.holders_pos_of_held {a : Account} (ha : a.Consistent) {s : Share}
    (hs : 0 < a.holdings.held s) : 0 < a.holdings.holders s := by
  have hbalance := ha.balance s
  omega

/-- The object of a live entry has a holder. -/
theorem Consistent.holders_pos_of_borrow {a : Account} (ha : a.Consistent) {r : Nat}
    {handle : Handle} {object : Object}
    (hborrow : (a.holdings.registry r).borrow handle = .ok object) :
    0 < a.holdings.holders (.object object) :=
  ha.holders_pos_of_held (Holdings.held_pos_of_borrow hborrow)

/-- What an item holds has a holder. -/
theorem Consistent.holders_pos_of_item {a : Account} (ha : a.Consistent) {ref : ItemRef}
    {item : Item} (hitem : a.holdings.items.content? ref = some item) {s : Share}
    (hs : s ∈ item.shares) : 0 < a.holdings.holders s := by
  have hle := Pool.le_weight (w := fun item : Item => item.shares.count s) hitem
  have hcount : 0 < item.shares.count s := List.count_pos_iff.mpr hs
  refine ha.holders_pos_of_held ?_
  simp only [Holdings.held, Holdings.heldByItems]
  omega

/-! ## §2 The elementary steps -/

/-- One elementary change of an account. -/
inductive Step : Account → Account → Prop where
  /-- Something that has a holder gets another. -/
  | share {h : Holdings} {rest : Multiset Share} {d : Dealings} (s : Share)
      (hpos : 0 < h.holders s) :
      Step ⟨h, rest, d⟩ ⟨h.retain s, {s} + rest, d⟩
  /-- A share is given up. -/
  | letGo {h : Holdings} {rest : Multiset Share} {d : Dealings} (s : Share) :
      Step ⟨h, {s} + rest, d⟩ ⟨(h.letGo s).1, ((h.letGo s).2 : Multiset Share) + rest, d⟩
  /-- An item is made, which takes the shares that it holds. -/
  | newItem {h : Holdings} {rest : Multiset Share} {d : Dealings} (item : Item) :
      Step ⟨h, (item.shares : Multiset Share) + rest, d⟩
        ⟨(h.newItem item).1, {Share.item (h.newItem item).2} + rest, d⟩
  /-- An owner is made that gives up no entry. -/
  | newTally {h : Holdings} {rest : Multiset Share} {d : Dealings} (counter : Nat) :
      Step ⟨h, rest, d⟩
        ⟨(h.newOwner (.tally counter)).1, {Share.owner (h.newOwner (.tally counter)).2} + rest, d⟩
  /-- A counter is opened. -/
  | newCounter {h : Holdings} {rest : Multiset Share} {d : Dealings} :
      Step ⟨h, rest, d⟩ ⟨h.newCounter.1, rest, d⟩
  /-- An exception is made, which takes the shares that it holds. -/
  | newNode {h : Holdings} {rest : Multiset Share} {d : Dealings} (node : Node) :
      Step ⟨h, (node.shares : Multiset Share) + rest, d⟩
        ⟨h.withExceptions (h.exceptions.insert node).1,
          {Share.exception (h.exceptions.insert node).2} + rest, d⟩
  /-- An exception is edited, which trades the shares it holds. -/
  | relink {h : Holdings} {rest : Multiset Share} {d : Dealings} {e : ExceptionRef} {node : Node}
      (hnode : h.exceptions.content? e = some node) (f : Node → Node)
      {given taken : Multiset Share}
      (htrade : given + (node.shares : Multiset Share)
        = taken + ((f node).shares : Multiset Share)) :
      Step ⟨h, given + rest, d⟩ ⟨h.withExceptions (h.exceptions.edit e f), taken + rest, d⟩
  /-- An object is stored under an owner. -/
  | mint {h : Holdings} {rest : Multiset Share} {d : Dealings} {r : Nat}
      (hr : r < h.registries.size) (object : Object) :
      Step ⟨h, {Share.object object} + rest, d⟩
        ⟨(h.mint r object).1, ((h.mint r object).2.shares : Multiset Share) + rest, d⟩
  /-- An object is stored directly. -/
  | deposit {h : Holdings} {rest : Multiset Share} {d : Dealings} {r : Nat}
      (hr : r < h.registries.size) (object : Object) :
      Step ⟨h, {Share.object object} + rest, d⟩
        ⟨(h.store r object).1, rest, d.deposit r (h.store r object).2⟩
  /-- An entry is given up directly. -/
  | withdraw {h : Holdings} {rest : Multiset Share} {d : Dealings} {r : Nat} {handle : Handle}
      {x : Registry Object} {object : Object}
      (hfetch : (h.registry r).fetch handle = .ok (x, object)) :
      Step ⟨h, rest, d⟩ ⟨h.setRegistry r x, {Share.object object} + rest, d.withdraw r handle⟩

/-! ## §3 Steps keep accounts consistent -/

theorem count_singleton (s other : Share) :
    Multiset.count other {s} = if s = other then 1 else 0 := by
  rw [Multiset.count_singleton]
  simp only [eq_comm]

section Consistency

variable {h : Holdings} {rest : Multiset Share} {d : Dealings}

theorem consistent_share {s : Share} (hpos : 0 < h.holders s)
    (ha : Consistent ⟨h, rest, d⟩) : Consistent ⟨h.retain s, {s} + rest, d⟩ := by
  refine
    { tidy := ?_
      balance := fun other => ?_
      owners_attended := ?_
      items_attended := ?_
      exceptions_attended := ?_ }
  · intro r
    have hsame : (h.retain s).registry r = h.registry r := by
      simp [Holdings.registry]
    rw [hsame]
    exact ha.tidy r
  -- The new holder is the share that comes into hand.
  · have hbalance := ha.balance other
    simp only at hbalance
    rw [Holdings.holders_retain hpos, Holdings.held_retain, Multiset.count_add, count_singleton]
    omega
  · cases s with
    | owner ref => exact Pool.attended_retain ha.owners_attended hpos
    | item _ | exception _ => exact ha.owners_attended
  · cases s with
    | item ref => exact Pool.attended_retain ha.items_attended hpos
    | owner _ | exception _ => exact ha.items_attended
  · cases s with
    | exception ref => exact Pool.attended_retain ha.exceptions_attended hpos
    | owner _ | item _ => exact ha.exceptions_attended

theorem tidy_setRegistry (htidy : ∀ r, (h.registry r).Tidy) {r : Nat} {x : Registry Object}
    (hx : x.Tidy) (other : Nat) : ((h.setRegistry r x).registry other).Tidy := by
  by_cases hother : other = r
  · subst hother
    by_cases hr : other < h.registries.size
    · rw [Holdings.registry_setRegistry_self hr]
      exact hx
    -- A registry that is not there is not exchanged.
    · rw [Holdings.registry_of_le (by simpa using hr)]
      exact Registry.tidy_new 0
  · rw [Holdings.registry_setRegistry_of_ne h x hother]
    exact htidy other

theorem tidy_discharge (htidy : ∀ r, (h.registry r).Tidy) (duty : Option Duty) (r : Nat) :
    ((h.discharge duty).1.registry r).Tidy := by
  unfold Holdings.discharge
  split
  · exact htidy r
  · exact htidy r
  · split
    · exact htidy r
    · rename_i x object hfetch
      exact tidy_setRegistry htidy (Holdings.vacated_of_fetch (htidy _) hfetch).2.tidy r

theorem consistent_letGo {s : Share} (ha : Consistent ⟨h, {s} + rest, d⟩) :
    Consistent ⟨(h.letGo s).1, ((h.letGo s).2 : Multiset Share) + rest, d⟩ := by
  refine
    { tidy := ?_
      balance := fun other => ?_
      owners_attended := ?_
      items_attended := ?_
      exceptions_attended := ?_ }
  · intro r
    cases s with
    | owner ref =>
      exact tidy_discharge (h := { h with owners := (h.owners.release ref).1 }) ha.tidy _ r
    | item _ | exception _ => exact ha.tidy r
  -- What is set free passes from the holdings to the hand.
  · have hbalance := ha.balance other
    have hholders := Holdings.letGo_holders h s other
    have hheld := Holdings.letGo_held (h := h) ha.tidy s other
    simp only [Multiset.count_add, count_singleton, Multiset.coe_count] at hbalance hholders ⊢
    omega
  · cases s with
    | owner ref =>
      show (h.letGo _).1.owners.Attended
      rw [(Holdings.letGo_owner_pools h ref).1]
      exact Pool.attended_release ha.owners_attended ref
    | item _ | exception _ => exact ha.owners_attended
  · cases s with
    | item ref => exact Pool.attended_release ha.items_attended ref
    | owner ref =>
      show (h.letGo _).1.items.Attended
      rw [(Holdings.letGo_owner_pools h ref).2.1]
      exact ha.items_attended
    | exception _ => exact ha.items_attended
  · cases s with
    | exception ref => exact Pool.attended_release ha.exceptions_attended ref
    | owner ref =>
      show (h.letGo _).1.exceptions.Attended
      rw [(Holdings.letGo_owner_pools h ref).2.2]
      exact ha.exceptions_attended
    | item _ => exact ha.exceptions_attended

theorem consistent_newItem {item : Item}
    (ha : Consistent ⟨h, (item.shares : Multiset Share) + rest, d⟩) :
    Consistent ⟨(h.newItem item).1, {Share.item (h.newItem item).2} + rest, d⟩ where
  tidy := ha.tidy
  balance other := by
    have hbalance := ha.balance other
    simp only [Holdings.holders_newItem, Holdings.held_newItem, Multiset.count_add,
      count_singleton, Multiset.coe_count] at hbalance ⊢
    omega
  owners_attended := ha.owners_attended
  items_attended := Pool.attended_insert ha.items_attended item
  exceptions_attended := ha.exceptions_attended

theorem consistent_newOwner (duty : Duty) (ha : Consistent ⟨h, rest, d⟩) :
    Consistent ⟨(h.newOwner duty).1, {Share.owner (h.newOwner duty).2} + rest, d⟩ where
  tidy := ha.tidy
  balance other := by
    have hbalance := ha.balance other
    simp only [Holdings.holders_newOwner, Holdings.held_newOwner, Multiset.count_add,
      count_singleton] at hbalance ⊢
    omega
  owners_attended := Pool.attended_insert ha.owners_attended duty
  items_attended := ha.items_attended
  exceptions_attended := ha.exceptions_attended

theorem consistent_newNode {node : Node}
    (ha : Consistent ⟨h, (node.shares : Multiset Share) + rest, d⟩) :
    Consistent ⟨h.withExceptions (h.exceptions.insert node).1,
      {Share.exception (h.exceptions.insert node).2} + rest, d⟩ where
  tidy := ha.tidy
  balance other := by
    have hbalance := ha.balance other
    simp only [Holdings.holders_insertNode, Holdings.held_insertNode, Multiset.count_add,
      count_singleton, Multiset.coe_count] at hbalance ⊢
    omega
  owners_attended := ha.owners_attended
  items_attended := ha.items_attended
  exceptions_attended := Pool.attended_insert ha.exceptions_attended node

theorem consistent_relink {e : ExceptionRef} {node : Node}
    (hnode : h.exceptions.content? e = some node) (f : Node → Node) {given taken : Multiset Share}
    (htrade : given + (node.shares : Multiset Share) = taken + ((f node).shares : Multiset Share))
    (ha : Consistent ⟨h, given + rest, d⟩) :
    Consistent ⟨h.withExceptions (h.exceptions.edit e f), taken + rest, d⟩ where
  tidy := ha.tidy
  balance other := by
    have hbalance := ha.balance other
    have hheld := Holdings.held_editNode hnode f other
    -- The hand and the exception trade shares, and nobody's holders change.
    have hcount := congrArg (Multiset.count other) htrade
    simp only [Holdings.holders_editNode, Multiset.count_add, Multiset.coe_count]
      at hbalance hcount ⊢
    omega
  owners_attended := ha.owners_attended
  items_attended := ha.items_attended
  exceptions_attended := Pool.attended_edit ha.exceptions_attended e f

/-- Storing an object uses up the share of it. -/
theorem consistent_store {r : Nat} (hr : r < h.registries.size) {object : Object}
    (ha : Consistent ⟨h, {Share.object object} + rest, d⟩) (d' : Dealings) :
    Consistent ⟨(h.store r object).1, rest, d'⟩ := by
  obtain ⟨index, hstored⟩ := Registry.store_stored (ha.tidy r) object
  refine
    { tidy := tidy_setRegistry ha.tidy hstored.tidy
      balance := fun other => ?_
      owners_attended := ha.owners_attended
      items_attended := ha.items_attended
      exceptions_attended := ha.exceptions_attended }
  have hbalance := ha.balance other
  -- The share moves from the hand into the entry.
  have hheld := Holdings.held_setRegistry_stored hr hstored other
  simp only [Holdings.store, Holdings.holders_setRegistry, Multiset.count_add, count_singleton,
    Holdings.entryHolds] at hbalance hheld ⊢
  omega

/-- Fetching an entry hands its share over. -/
theorem consistent_fetch {r : Nat} {handle : Handle} {x : Registry Object} {object : Object}
    (hfetch : (h.registry r).fetch handle = .ok (x, object))
    (ha : Consistent ⟨h, rest, d⟩) (d' : Dealings) :
    Consistent ⟨h.setRegistry r x, {Share.object object} + rest, d'⟩ := by
  obtain ⟨hr, hvacated⟩ := Holdings.vacated_of_fetch (ha.tidy r) hfetch
  refine
    { tidy := tidy_setRegistry ha.tidy hvacated.tidy
      balance := fun other => ?_
      owners_attended := ha.owners_attended
      items_attended := ha.items_attended
      exceptions_attended := ha.exceptions_attended }
  have hbalance := ha.balance other
  -- The share moves from the entry into the hand.
  have hheld := Holdings.held_setRegistry_vacated hr hvacated other
  simp only [Holdings.holders_setRegistry, Multiset.count_add, count_singleton,
    Holdings.entryHolds] at hbalance hheld ⊢
  omega

theorem Step.consistent {a a' : Account} (hstep : Step a a') (ha : a.Consistent) :
    a'.Consistent := by
  cases hstep with
  | share s hpos => exact consistent_share hpos ha
  | letGo s => exact consistent_letGo ha
  | newItem item => exact consistent_newItem ha
  | newTally counter => exact consistent_newOwner (.tally counter) ha
  | newCounter =>
    -- A counter holds nothing and is held by nobody.
    exact ⟨ha.tidy, ha.balance, ha.owners_attended, ha.items_attended, ha.exceptions_attended⟩
  | newNode node => exact consistent_newNode ha
  | relink hnode f htrade => exact consistent_relink hnode f htrade ha
  | mint hr object => exact consistent_newOwner _ (consistent_store hr ha _)
  | deposit hr object => exact consistent_store hr ha _
  | withdraw hfetch => exact consistent_fetch hfetch ha _

end Consistency

/-! ## §4 Runs -/

/-- Any number of elementary steps. -/
def Run : Account → Account → Prop :=
  Relation.ReflTransGen Step

theorem Run.refl (a : Account) : Run a a :=
  Relation.ReflTransGen.refl

theorem Run.trans {a b c : Account} (hab : Run a b) (hbc : Run b c) : Run a c :=
  Relation.ReflTransGen.trans hab hbc

theorem Step.run {a b : Account} (hstep : Step a b) : Run a b :=
  Relation.ReflTransGen.single hstep

/-- What every step keeps, every run keeps. -/
theorem Run.preserves {P : Account → Prop} (hstep : ∀ a b, Step a b → P a → P b) {a b : Account}
    (hrun : Run a b) (ha : P a) : P b := by
  induction hrun with
  | refl => exact ha
  | tail _ hlast ih => exact hstep _ _ hlast ih

theorem Run.consistent {a b : Account} (hrun : Run a b) (ha : a.Consistent) : b.Consistent :=
  hrun.preserves (fun _ _ hstep => hstep.consistent) ha

/-- No step adds or removes a registry. -/
theorem Step.size_eq {a b : Account} (hstep : Step a b) :
    b.holdings.registries.size = a.holdings.registries.size := by
  cases hstep with
  | share s _ => rw [Holdings.registries_retain]
  | letGo s =>
    cases s with
    | owner ref => exact Holdings.size_discharge _ _
    | item _ | exception _ => rfl
  | newItem _ | newTally _ | newCounter | newNode _ | relink _ _ _ => rfl
  | mint _ _ | deposit _ _ | withdraw _ => exact Holdings.size_setRegistry _ _ _

theorem Run.size_eq {a b : Account} (hrun : Run a b) :
    b.holdings.registries.size = a.holdings.registries.size :=
  hrun.preserves (P := fun x => x.holdings.registries.size = a.holdings.registries.size)
    (fun _ _ hstep hsize => hstep.size_eq.trans hsize) rfl

end Account

end Ferry
