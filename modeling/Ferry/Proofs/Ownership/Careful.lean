import Ferry.Proofs.Ownership.Account

/-!
# Careful runs

An exception is edited only while it is under construction: the one who edits it has a share in
hand, and there is no other.  An elementary step that keeps to this is *careful*.  Operations come
down to careful steps, since their builders copy what is shared before they edit it.

So whatever is held by an entry, by another exception or by a second variable stays as it is.

Main statements: one careful step for each elementary step, under a condition for editing only
(`CarefulStep.relink`), and that careful runs are runs (`CarefulRun.run`).

## Sections

1. Careful steps.
2. The elementary steps, carefully.
3. Careful runs.
-/

namespace Ferry.Account

/-! ## §1 Careful steps -/

/-- An exception that is new or changed is in hand, and nobody else holds it. -/
def Spares (a a' : Account) : Prop :=
  ∀ e node, a'.holdings.exceptions.content? e = some node →
    a.holdings.exceptions.content? e = some node ∨
      Share.exception e ∈ a'.hand ∧ a'.holdings.exceptions.holders e ≤ 1

/-- An elementary change that spares the exceptions of others. -/
structure CarefulStep (a a' : Account) : Prop where
  step : Step a a'
  spares : Spares a a'

/-! ## §2 The elementary steps, carefully -/

namespace CarefulStep

variable {h : Holdings} {rest : Multiset Share} {d : Dealings}

theorem share (s : Share) (hpos : 0 < h.holders s) :
    CarefulStep ⟨h, rest, d⟩ ⟨h.retain s, {s} + rest, d⟩ := by
  refine ⟨.share s hpos, fun e node hnode => Or.inl ?_⟩
  cases s with
  | owner _ | item _ => exact hnode
  | exception ref => exact (Pool.content?_retain h.exceptions ref e).symm.trans hnode

theorem letGo (s : Share) :
    CarefulStep ⟨h, {s} + rest, d⟩ ⟨(h.letGo s).1, ((h.letGo s).2 : Multiset Share) + rest, d⟩ := by
  refine ⟨.letGo s, fun e node hnode => Or.inl ?_⟩
  cases s with
  | owner ref =>
    have hsame : (h.letGo (.owner ref)).1.exceptions = h.exceptions :=
      (Holdings.letGo_owner_pools h ref).2.2
    exact hsame ▸ hnode
  | item _ => exact hnode
  | exception ref => exact Pool.content?_of_release hnode

theorem newItem (item : Item) :
    CarefulStep ⟨h, (item.shares : Multiset Share) + rest, d⟩
      ⟨(h.newItem item).1, {Share.item (h.newItem item).2} + rest, d⟩ :=
  ⟨.newItem item, fun _ _ hnode => Or.inl hnode⟩

theorem newTally (counter : Nat) :
    CarefulStep ⟨h, rest, d⟩
      ⟨(h.newOwner (.tally counter)).1, {Share.owner (h.newOwner (.tally counter)).2} + rest, d⟩ :=
  ⟨.newTally counter, fun _ _ hnode => Or.inl hnode⟩

theorem newCounter : CarefulStep ⟨h, rest, d⟩ ⟨h.newCounter.1, rest, d⟩ :=
  ⟨.newCounter, fun _ _ hnode => Or.inl hnode⟩

theorem newNode (node : Node) :
    CarefulStep ⟨h, (node.shares : Multiset Share) + rest, d⟩
      ⟨h.withExceptions (h.exceptions.insert node).1,
        {Share.exception (h.exceptions.insert node).2} + rest, d⟩ := by
  refine ⟨.newNode node, fun e found hfound => ?_⟩
  by_cases hnew : e = (h.exceptions.insert node).2
  · subst hnew
    -- The one who makes an exception is its only holder.
    have hcell := Pool.cell?_insert h.exceptions node (h.exceptions.insert node).2
    rw [if_pos rfl] at hcell
    exact Or.inr ⟨by simp, (Pool.holders_of_cell? hcell).le⟩
  · have hsame := Pool.content?_insert h.exceptions node e
    rw [if_neg hnew] at hsame
    exact Or.inl (hsame.symm.trans hfound)

/-- Editing is careful if the exception is in hand and nobody else holds it. -/
theorem relink {e : ExceptionRef} {node : Node} (hnode : h.exceptions.content? e = some node)
    (f : Node → Node) {given taken : Multiset Share}
    (htrade : given + (node.shares : Multiset Share) = taken + ((f node).shares : Multiset Share))
    (hhand : Share.exception e ∈ taken) (hsole : h.exceptions.holders e ≤ 1) :
    CarefulStep ⟨h, given + rest, d⟩
      ⟨h.withExceptions (h.exceptions.edit e f), taken + rest, d⟩ := by
  refine ⟨.relink hnode f htrade, fun other found hfound => ?_⟩
  by_cases hother : other = e
  · subst hother
    refine Or.inr ⟨Multiset.mem_add.mpr (Or.inl hhand), ?_⟩
    exact (Pool.holders_edit h.exceptions other other f).trans_le hsole
  · have hsame := Pool.content?_edit h.exceptions e other f
    rw [if_neg hother] at hsame
    exact Or.inl (hsame.symm.trans hfound)

theorem mint {r : Nat} (hr : r < h.registries.size) (object : Object) :
    CarefulStep ⟨h, {Share.object object} + rest, d⟩
      ⟨(h.mint r object).1, ((h.mint r object).2.shares : Multiset Share) + rest, d⟩ :=
  ⟨.mint hr object, fun _ _ hnode => Or.inl hnode⟩

theorem deposit {r : Nat} (hr : r < h.registries.size) (object : Object) :
    CarefulStep ⟨h, {Share.object object} + rest, d⟩
      ⟨(h.store r object).1, rest, d.deposit r (h.store r object).2⟩ :=
  ⟨.deposit hr object, fun _ _ hnode => Or.inl hnode⟩

theorem withdraw {r : Nat} {handle : Handle} {x : Registry Object} {object : Object}
    (hfetch : (h.registry r).fetch handle = .ok (x, object)) :
    CarefulStep ⟨h, rest, d⟩
      ⟨h.setRegistry r x, {Share.object object} + rest, d.withdraw r handle⟩ :=
  ⟨.withdraw hfetch, fun _ _ hnode => Or.inl hnode⟩

end CarefulStep

/-! ## §3 Careful runs -/

/-- Any number of careful steps. -/
def CarefulRun : Account → Account → Prop :=
  Relation.ReflTransGen CarefulStep

variable {a b c : Account}

theorem CarefulRun.refl (a : Account) : CarefulRun a a :=
  Relation.ReflTransGen.refl

theorem CarefulRun.trans (hab : CarefulRun a b) (hbc : CarefulRun b c) : CarefulRun a c :=
  Relation.ReflTransGen.trans hab hbc

theorem CarefulStep.careful (hstep : CarefulStep a b) : CarefulRun a b :=
  Relation.ReflTransGen.single hstep

/-- A careful run is a run. -/
theorem CarefulRun.run (hrun : CarefulRun a b) : Run a b := by
  induction hrun with
  | refl => exact Run.refl a
  | tail _ hlast ih => exact ih.trans hlast.step.run

theorem CarefulRun.consistent (hrun : CarefulRun a b) (ha : a.Consistent) : b.Consistent :=
  hrun.run.consistent ha

end Ferry.Account
