import Ferry.Proofs.Ownership.Cascade
import Ferry.Proofs.Ownership.Exact
import Ferry.Proofs.Ownership.Layers

/-!
# No leak

A live entry whose object is a status keeps the entries alive that the status's payloads own.  Along
this relation the numbers of the items get smaller, so it has no cycle, and an entry that nothing
outside keeps alive would have to be kept alive by entries without end.  Hence once the variables
hold nothing and what was stored directly is given up, no entry is left.

Main statements: `keeps_acyclic`, and `no_leak`, what this comes to after a script.

## Sections

1. Entries that keep others alive.
2. Nothing is left.
3. After a script.
-/

namespace Ferry

open Account

/-! ## §1 Entries that keep others alive -/

/-- An entry that is live keeps another alive: its object is a status, and a payload of the status
holds the owner of the other entry.  Entries are named by the places of their registries and their
handles. -/
def Holdings.Keeps (h : Holdings) (a b : Nat × Handle) : Prop :=
  ∃ ref status payload o object, (h.registry a.1).borrow a.2 = .ok (.item ref) ∧
    h.items.content? ref = some (.status status) ∧ payload ∈ status.payloads ∧
    payload.owner = some o ∧ h.owners.content? o = some (.entry b.1 b.2) ∧
    (h.registry b.1).borrow b.2 = .ok object

/-- The rank of an entry: above all items if it is that of the youngest. -/
def Holdings.rank (h : Holdings) (entry : Nat × Handle) : Nat :=
  match (h.registry entry.1).borrow entry.2 with
  | .ok (.item ref) => ref.index + 1
  | _ => 0

namespace Account

variable {a : Account}

theorem Layered.rank_lt (ha : a.Layered) {x y : Nat × Handle} (hkeeps : a.holdings.Keeps x y) :
    a.holdings.rank y < a.holdings.rank x := by
  obtain ⟨ref, status, payload, o, object, hx, hitem, hslot, howner, hduty, hy⟩ := hkeeps
  have hmem : Share.owner o ∈ status.shares :=
    Script.Session.mem_status_shares.mpr ⟨payload, hslot, howner⟩
  unfold Holdings.rank
  rw [hx, hy]
  cases object with
  -- An exception keeps no entry alive, so its entry has the lowest rank.
  | exception _ => exact Nat.succ_pos _
  | item older =>
    have hlt := ha ref status o y.1 y.2 older hitem hmem hduty hy
    exact Nat.succ_lt_succ hlt

theorem Layered.rank_lt_of_transGen (ha : a.Layered) {x y : Nat × Handle}
    (hpath : Relation.TransGen a.holdings.Keeps x y) : a.holdings.rank y < a.holdings.rank x := by
  induction hpath with
  | single hkeeps => exact ha.rank_lt hkeeps
  | tail _ hkeeps ih => exact (ha.rank_lt hkeeps).trans ih

/-- No entry keeps itself alive, at any remove. -/
theorem Layered.keeps_acyclic (ha : a.Layered) (x : Nat × Handle) :
    ¬Relation.TransGen a.holdings.Keeps x x :=
  fun hcycle => Nat.lt_irrefl _ (ha.rank_lt_of_transGen hcycle)

end Account

namespace Script.Session

/-! ## §2 Nothing is left -/

/-- No variable holds a status, a payload or an object. -/
structure HoldsNothing (s : Session) : Prop where
  no_status : s.statuses.entries = []
  no_payload : s.payloads.entries = []
  no_object : ∀ name kept, (name, kept) ∈ s.objects.entries → kept.held = false

variable {s : Session} {d : Dealings}

/-- An entry that nothing outside keeps alive is kept alive by another entry. -/
theorem exists_keeps (hconsistent : (s.account d).Consistent) (hexclusive : (s.account d).Exclusive)
    (hrange : s.holdings.InRange) (hnothing : s.HoldsNothing)
    (hstale : ∀ r handle, (r, handle) ∈ d.deposits →
      (s.holdings.registry r).contains handle = false)
    {r : Nat} {handle : Handle} {object : Object}
    (hborrow : (s.holdings.registry r).borrow handle = .ok object) :
    ∃ entry, s.holdings.Keeps entry (r, handle) := by
  rcases hexclusive.live_kept r handle object hborrow with hdeposit | ⟨o, howns⟩
  -- What was stored directly is stale, so it is not live.
  · have hcontains := hstale r handle hdeposit
    rw [Registry.contains, show (s.holdings.registry r).borrow handle = _ from hborrow] at hcontains
    cases hcontains
  · obtain ⟨payload, hexists, howner⟩ := exists_payload_of_owner hconsistent hrange howns
    -- The payload that holds the owner is in no variable, so it is in an item of another entry.
    cases hexists with
    | named hname =>
      rw [hnothing.no_payload] at hname
      cases hname
    | inStatus hname _ =>
      rw [hnothing.no_status] at hname
      cases hname
    | @inItem ref status hitem hkept hslot =>
      rcases hkept with ⟨name, hname⟩ | ⟨r', handle', hfound⟩
      · cases hnothing.no_object name _ hname
      · exact ⟨(r', handle'), ref, status, payload, o, object, hfound, hitem, hslot, howner, howns,
          hborrow⟩

/-- The youngest item bounds the rank of all entries. -/
theorem rank_le (hconsistent : (s.account d).Consistent) (entry : Nat × Handle) :
    s.holdings.rank entry ≤ s.holdings.items.cells.size := by
  unfold Holdings.rank
  split
  · rename_i ref hborrow
    exact hconsistent.index_lt_of_borrow hborrow
  · exact Nat.zero_le _

/-- Entries would be kept alive by ever younger items, of which there are finitely many. -/
theorem not_live (hconsistent : (s.account d).Consistent) (hexclusive : (s.account d).Exclusive)
    (hlayered : (s.account d).Layered) (hrange : s.holdings.InRange) (hnothing : s.HoldsNothing)
    (hstale : ∀ r handle, (r, handle) ∈ d.deposits →
      (s.holdings.registry r).contains handle = false)
    (r : Nat) (handle : Handle) (object : Object) :
    (s.holdings.registry r).borrow handle ≠ .ok object := by
  -- The induction is on how far the rank of an entry is below its bound.
  have hgap : ∀ n r handle object, (s.holdings.registry r).borrow handle = .ok object →
      ¬s.holdings.items.cells.size < s.holdings.rank (r, handle) + n := by
    intro n
    induction n with
    | zero =>
      intro r handle _ _
      have hle := rank_le hconsistent (r, handle)
      omega
    -- The keeper of the entry has a higher rank, and it is live as well.
    | succ n ih =>
      intro r handle object hborrow
      obtain ⟨⟨r', handle'⟩, hkeeps⟩ := exists_keeps hconsistent hexclusive hrange hnothing hstale
        hborrow
      have hlt : s.holdings.rank (r, handle) < s.holdings.rank (r', handle') :=
        hlayered.rank_lt hkeeps
      obtain ⟨ref, _, _, _, _, hfound, _⟩ := hkeeps
      have hkeeper := ih r' handle' _ hfound
      omega
  intro hborrow
  exact hgap (s.holdings.items.cells.size + 1) r handle object hborrow (by omega)

/-- A registry without live entries counts none. -/
theorem liveCounts_eq_zero (hconsistent : (s.account d).Consistent) (hrange : s.holdings.InRange)
    (hdead : ∀ r handle object, (s.holdings.registry r).borrow handle ≠ .ok object) :
    ∀ count ∈ s.holdings.liveCounts, count = 0 := by
  intro count hcount
  obtain ⟨registry, hmem, rfl⟩ := List.mem_map.mp hcount
  obtain ⟨r, hr⟩ := List.mem_iff_getElem?.mp hmem
  obtain ⟨hlt, _⟩ := List.getElem?_eq_some_iff.mp hr
  rw [Holdings.registry_of_lt (by simpa using hlt), Option.some.injEq] at hr
  subst hr
  by_contra hne
  -- In a tidy table the live count is the number of occupied slots.
  have hlive : (s.holdings.registry r).live = _ := (hconsistent.tidy r).live_eq
  obtain ⟨i, slot, object, hslot, hobject, _⟩ :=
    Registry.exists_of_weight_pos (Nat.pos_of_ne_zero (hlive ▸ hne))
  obtain ⟨handle, hborrow⟩ := exists_borrow (hrange r) hslot hobject
  exact hdead r handle object hborrow

/-! ## §3 After a script -/

theorem start_layered (identities : List UInt64) (bridges : List Bridge) :
    ((start identities bridges).account {}).Layered := by
  intro ref status o r handle older hitem
  simp [account, start, Holdings.start, Pool.content?, Pool.cell?] at hitem

theorem after_layered (identities : List UInt64) (bridges : List Bridge) (commands : List Command)
    (inRange : ((start identities bridges).after commands).holdings.InRange) :
    (((start identities bridges).after commands).account
      ((start identities bridges).dealings {} commands)).Layered := by
  have hstart := start_consistent identities bridges
  exact (after_run hstart commands).layered hstart (start_exclusive identities bridges)
    (start_layered identities bridges) inRange

/-- After a script, no entry keeps itself alive.  Whatever is given up from there on, the cascade
ends and gives up each entry once at most; and no entry was given up twice before.  Once the
variables hold nothing and what was stored directly is stale, no registry has a live entry. -/
theorem no_leak (identities : List UInt64) (bridges : List Bridge) (commands : List Command)
    (inRange : ((start identities bridges).after commands).holdings.InRange) :
    (∀ entry, ¬Relation.TransGen ((start identities bridges).after commands).holdings.Keeps
      entry entry) ∧
    (∀ a, Run (((start identities bridges).after commands).account
        ((start identities bridges).dealings {} commands)) a → ∀ pending,
      (∃ n, Holdings.cascade^[n] (a.holdings, pending) = (a.holdings.releaseAll pending, [])) ∧
      ∀ r, ∃ gone, Holdings.GivesUp (a.holdings.registry r)
        ((a.holdings.releaseAll pending).registry r) gone) ∧
    (∀ r, (((start identities bridges).after commands).holdings.registry r).released.Nodup) ∧
    (((start identities bridges).after commands).HoldsNothing →
      (∀ r handle, (r, handle) ∈ ((start identities bridges).dealings {} commands).deposits →
        (((start identities bridges).after commands).holdings.registry r).contains handle
          = false) →
      ∀ count ∈ ((start identities bridges).after commands).holdings.liveCounts, count = 0) := by
  have hconsistent := after_consistent identities bridges commands
  have hexclusive := after_exclusive identities bridges commands inRange
  have hlayered := after_layered identities bridges commands inRange
  refine ⟨hlayered.keeps_acyclic, fun a hrun pending => ⟨?_, fun r => ?_⟩,
    fun r => (hexclusive.faithful r).released_nodup, fun hnothing hstale => ?_⟩
  · obtain ⟨n, _, hend⟩ := Holdings.cascade_ends a.holdings pending
    exact ⟨n, hend⟩
  · exact Holdings.releaseAll_givesUp (hrun.consistent hconsistent).tidy pending r
  · exact liveCounts_eq_zero hconsistent inRange
      (not_live hconsistent hexclusive hlayered inRange hnothing hstale)

/-- What is nested is given up again: both handles, the object variable and the second owner. -/
def unwound : List Command :=
  nested ++
    [.object (.drop "inner"), .payload (.drop "q"), .object (.release "g" 0),
      .object (.release "h" 1)]

theorem no_leak_unwound :
    ((start [7, 9] []).after unwound).holdings.InRange ∧
      ((start [7, 9] []).after unwound).HoldsNothing ∧
      (∀ count ∈ ((start [7, 9] []).after unwound).holdings.liveCounts, count = 0) ∧
      ∃ n, Holdings.cascade^[n] (((start [7, 9] []).after nested).holdings, [.item ⟨1⟩])
        = (((start [7, 9] []).after nested).holdings.releaseAll [.item ⟨1⟩], []) := by
  have inRange : ((start [7, 9] []).after unwound).holdings.InRange :=
    Holdings.InRange.of_short (by decide +kernel)
  have hnested : ((start [7, 9] []).after nested).holdings.InRange :=
    Holdings.InRange.of_short (by decide +kernel)
  have hobjects : ∀ entry ∈ ((start [7, 9] []).after unwound).objects.entries,
      entry.2.held = false := by
    decide +kernel
  have hnothing : ((start [7, 9] []).after unwound).HoldsNothing :=
    ⟨by decide +kernel, by decide +kernel, fun name kept hmem => hobjects (name, kept) hmem⟩
  have hdeposits : ∀ entry ∈ ((start [7, 9] []).dealings {} unwound).deposits,
      (((start [7, 9] []).after unwound).holdings.registry entry.1).contains entry.2 = false := by
    decide +kernel
  obtain ⟨_, _, _, hempty⟩ := no_leak [7, 9] [] unwound inRange
  obtain ⟨_, hcascade, _, _⟩ := no_leak [7, 9] [] nested hnested
  exact ⟨inRange, hnothing, hempty hnothing fun r handle hmem => hdeposits (r, handle) hmem,
    (hcascade _ (Run.refl _) [.item ⟨1⟩]).1⟩

end Script.Session

end Ferry
