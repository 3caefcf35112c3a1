import Ferry.Proofs.Ownership.Careful

/-!
# Quiet runs

Some owners only count: when such an owner goes, it adds one to the tally of its counter.  As long
as it is kept, it is *pledged* to the counter.

A step is quiet if it makes no such owner and opens no counter.  Whoever goes in a quiet step is
counted, so tally and pledges of a counter are together what they were before.  All operations come
down to quiet steps; only a payload that is made with a counter does not.

Main statements: one quiet step for each elementary step save two, and `QuietRun.settles`, that
quiet runs keep tally and pledges together.

## Sections

1. Pledges.
2. Quiet steps.
3. Quiet runs.
-/

namespace Ferry

namespace Holdings

/-! ## §1 Pledges -/

/-- One for an owner that will add to the tally of a counter, and zero for others. -/
def pledge (counter : Nat) (duty : Duty) : Nat :=
  if duty = .tally counter then 1 else 0

/-- The number of owners that will add to the tally of a counter. -/
def pledged (h : Holdings) (counter : Nat) : Nat :=
  h.owners.weight (pledge counter)

/-- No owner that counts is new, and those that went were counted. -/
structure Settles (h h' : Holdings) : Prop where
  size_eq : h'.tallies.size = h.tallies.size
  balance : ∀ counter < h.tallies.size,
    h'.tallies.getD counter 0 + h'.pledged counter = h.tallies.getD counter 0 + h.pledged counter
  kept : ∀ o counter, h'.owners.content? o = some (.tally counter) →
    h.owners.content? o = some (.tally counter)

theorem Settles.refl (h : Holdings) : Settles h h :=
  ⟨rfl, fun _ _ => rfl, fun _ _ hkept => hkept⟩

theorem Settles.trans {h h' h'' : Holdings} (hfirst : Settles h h') (hsecond : Settles h' h'') :
    Settles h h'' where
  size_eq := hsecond.size_eq.trans hfirst.size_eq
  balance counter hcounter := by
    have hcounter' : counter < h'.tallies.size := hfirst.size_eq.symm ▸ hcounter
    exact (hsecond.balance counter hcounter').trans (hfirst.balance counter hcounter)
  kept o counter hkept := hfirst.kept o counter (hsecond.kept o counter hkept)

/-- What leaves owners and tallies alone settles. -/
theorem Settles.of_same {h h' : Holdings} (howners : h'.owners = h.owners)
    (htallies : h'.tallies = h.tallies) : Settles h h' where
  size_eq := by rw [htallies]
  balance counter _ := by rw [pledged, pledged, howners, htallies]
  kept o counter hkept := howners ▸ hkept

theorem settles_retain (h : Holdings) (s : Share) : Settles h (h.retain s) := by
  cases s with
  | owner o =>
    refine ⟨rfl, fun counter _ => ?_, fun other counter hkept => ?_⟩
    · have hweight := Pool.weight_retain (pledge counter) h.owners o
      simp only [retain, retainOwner, pledged, hweight]
    · simpa only [content?_owners_retain] using hkept
  | item _ | exception _ => exact Settles.of_same rfl rfl

/-- An owner that goes adds to the tally that it is pledged to. -/
theorem getD_tallies_discharge (h : Holdings) (duty : Option Duty) {counter : Nat}
    (hcounter : counter < h.tallies.size) :
    (h.discharge duty).1.tallies.getD counter 0
      = h.tallies.getD counter 0 + (duty.map (pledge counter)).getD 0 := by
  cases duty with
  | none => rfl
  | some duty =>
    cases duty with
    | entry r handle =>
      rw [tallies_discharge_entry]
      rfl
    | tally other =>
      simp only [discharge, Array.getD_eq_getD_getElem?, Array.getElem?_modify, Option.map_some,
        Option.getD_some, pledge, Duty.tally.injEq]
      split
      · simp [Array.getElem?_eq_getElem hcounter]
      · rfl

theorem size_tallies_discharge (h : Holdings) (duty : Option Duty) :
    (h.discharge duty).1.tallies.size = h.tallies.size := by
  unfold discharge
  split
  · rfl
  · exact Array.size_modify
  · split <;> rfl

theorem settles_letGo (h : Holdings) (s : Share) : Settles h (h.letGo s).1 := by
  cases s with
  | owner o =>
    obtain ⟨howners, _, _⟩ := letGo_owner_pools h o
    refine ⟨size_tallies_discharge _ _, fun counter hcounter => ?_, fun other counter hkept => ?_⟩
    -- The pledge of the owner that went has passed into the tally.
    · have hweight := Pool.weight_release (pledge counter) h.owners o
      have htally := getD_tallies_discharge { h with owners := (h.owners.release o).1 }
        (h.owners.release o).2 hcounter
      simp only [pledged, howners]
      simp only [letGo, settle, htally]
      omega
    · rw [howners] at hkept
      exact Pool.content?_of_release hkept
  | item _ | exception _ => exact Settles.of_same rfl rfl

/-- An owner of an entry is pledged to no counter. -/
theorem settles_mint (h : Holdings) (r : Nat) (object : Object) :
    Settles h (h.mint r object).1 where
  size_eq := rfl
  balance counter _ := by
    have hweight := Pool.weight_insert (pledge counter) h.owners (.entry r (h.store r object).2)
    simp only [mint, newOwner, pledged] at hweight ⊢
    exact congrArg _ hweight
  kept o counter hkept := by
    have hcontent := Pool.content?_insert h.owners (.entry r (h.store r object).2) o
    have hkept' : (h.owners.insert (.entry r (h.store r object).2)).1.content? o
        = some (.tally counter) := hkept
    rw [hcontent] at hkept'
    split at hkept'
    · cases hkept'
    · exact hkept'

end Holdings

namespace Account

/-! ## §2 Quiet steps -/

/-- A careful step that makes no owner that counts and opens no counter. -/
structure QuietStep (a a' : Account) : Prop where
  step : CarefulStep a a'
  settles : a.holdings.Settles a'.holdings

namespace QuietStep

variable {h : Holdings} {rest : Multiset Share} {d : Dealings}

theorem share (s : Share) (hpos : 0 < h.holders s) :
    QuietStep ⟨h, rest, d⟩ ⟨h.retain s, {s} + rest, d⟩ :=
  ⟨.share s hpos, h.settles_retain s⟩

theorem letGo (s : Share) :
    QuietStep ⟨h, {s} + rest, d⟩ ⟨(h.letGo s).1, ((h.letGo s).2 : Multiset Share) + rest, d⟩ :=
  ⟨.letGo s, h.settles_letGo s⟩

theorem newItem (item : Item) :
    QuietStep ⟨h, (item.shares : Multiset Share) + rest, d⟩
      ⟨(h.newItem item).1, {Share.item (h.newItem item).2} + rest, d⟩ :=
  ⟨.newItem item, .of_same rfl rfl⟩

theorem newNode (node : Node) :
    QuietStep ⟨h, (node.shares : Multiset Share) + rest, d⟩
      ⟨h.withExceptions (h.exceptions.insert node).1,
        {Share.exception (h.exceptions.insert node).2} + rest, d⟩ :=
  ⟨.newNode node, .of_same rfl rfl⟩

theorem relink {e : ExceptionRef} {node : Node} (hnode : h.exceptions.content? e = some node)
    (f : Node → Node) {given taken : Multiset Share}
    (htrade : given + (node.shares : Multiset Share) = taken + ((f node).shares : Multiset Share))
    (hhand : Share.exception e ∈ taken) (hsole : h.exceptions.holders e ≤ 1) :
    QuietStep ⟨h, given + rest, d⟩
      ⟨h.withExceptions (h.exceptions.edit e f), taken + rest, d⟩ :=
  ⟨.relink hnode f htrade hhand hsole, .of_same rfl rfl⟩

theorem mint {r : Nat} (hr : r < h.registries.size) (object : Object) :
    QuietStep ⟨h, {Share.object object} + rest, d⟩
      ⟨(h.mint r object).1, ((h.mint r object).2.shares : Multiset Share) + rest, d⟩ :=
  ⟨.mint hr object, h.settles_mint r object⟩

theorem deposit {r : Nat} (hr : r < h.registries.size) (object : Object) :
    QuietStep ⟨h, {Share.object object} + rest, d⟩
      ⟨(h.store r object).1, rest, d.deposit r (h.store r object).2⟩ :=
  ⟨.deposit hr object, .of_same rfl rfl⟩

theorem withdraw {r : Nat} {handle : Handle} {x : Registry Object} {object : Object}
    (hfetch : (h.registry r).fetch handle = .ok (x, object)) :
    QuietStep ⟨h, rest, d⟩
      ⟨h.setRegistry r x, {Share.object object} + rest, d.withdraw r handle⟩ :=
  ⟨.withdraw hfetch, .of_same rfl rfl⟩

end QuietStep

/-! ## §3 Quiet runs -/

/-- Any number of quiet steps. -/
def QuietRun : Account → Account → Prop :=
  Relation.ReflTransGen QuietStep

variable {a b c : Account}

theorem QuietRun.refl (a : Account) : QuietRun a a :=
  Relation.ReflTransGen.refl

theorem QuietRun.trans (hab : QuietRun a b) (hbc : QuietRun b c) : QuietRun a c :=
  Relation.ReflTransGen.trans hab hbc

theorem QuietStep.quiet (hstep : QuietStep a b) : QuietRun a b :=
  Relation.ReflTransGen.single hstep

/-- A quiet run is careful. -/
theorem QuietRun.careful (hrun : QuietRun a b) : CarefulRun a b := by
  induction hrun with
  | refl => exact CarefulRun.refl a
  | tail _ hlast ih => exact ih.trans hlast.step.careful

theorem QuietRun.run (hrun : QuietRun a b) : Run a b :=
  hrun.careful.run

theorem QuietRun.consistent (hrun : QuietRun a b) (ha : a.Consistent) : b.Consistent :=
  hrun.run.consistent ha

/-- A quiet run keeps tally and pledges of every counter together. -/
theorem QuietRun.settles (hrun : QuietRun a b) : a.holdings.Settles b.holdings := by
  induction hrun with
  | refl => exact Holdings.Settles.refl _
  | tail _ hlast ih => exact ih.trans hlast.settles

end Account

end Ferry
