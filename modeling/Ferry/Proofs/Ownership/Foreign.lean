import Ferry.Proofs.Script.Frames
import Ferry.Proofs.Ownership.Exact
import Ferry.Proofs.Ownership.Tenure
import Mathlib.Algebra.BigOperators.Fin

/-!
# Foreign owners

A foreign owner is made outside and comes with a payload.  It does nothing but count its own end.
It goes once, in the step after which no payload refers to it any more, and not before: the tally of
a counter is at any time the number of its owners that no payload refers to.

The owners that a script has made are told from its commands.  The reckoning says that tally and
pledges of every counter come to the number of the owners made for it; quiet runs keep it, and
making an owner adds one on both sides.

Main statements: `reckoned_after`, that the reckoning holds after every script; and `dropped_once`,
what this comes to for payloads.

## Sections

1. Counting.
2. Owners that were made.
3. The reckoning.
4. Commands.
5. Owners and payloads.
-/

namespace Ferry

/-! ## §1 Counting -/

/-- Counting places by what is in them is counting what is in places. -/
theorem countP_range_getElem? {α : Type} (test : α → Bool) (row : List α) :
    (List.range row.length).countP (fun i => (row[i]?).any test) = row.countP test := by
  induction row with
  | nil => rfl
  | cons first rest ih =>
    rw [List.length_cons, List.range_succ_eq_map, List.countP_cons, List.countP_map,
      List.countP_cons, ← ih]
    rfl

/-- What passes a first test either passes a second one or does not. -/
theorem countP_and_not {α : Type} (row : List α) (first second : α → Prop) [DecidablePred first]
    [DecidablePred second] :
    (row.countP fun x => first x ∧ second x) + (row.countP fun x => first x ∧ ¬second x)
      = row.countP fun x => first x := by
  induction row with
  | nil => rfl
  | cons x rest ih =>
    rw [List.countP_cons, List.countP_cons, List.countP_cons, ← ih]
    generalize List.countP (fun x => decide (first x ∧ second x)) rest = both
    generalize List.countP (fun x => decide (first x ∧ ¬second x)) rest = one
    by_cases hfirst : first x <;> by_cases hsecond : second x <;> simp [hfirst, hsecond] <;> omega

/-- The number of the kept values that pass a test. -/
theorem Pool.weight_eq_countP {role : Role} {α : Type} (pool : Pool role α) (test : α → Bool) :
    pool.weight (fun value => if test value then 1 else 0)
      = (List.range pool.cells.size).countP fun i => (pool.content? ⟨i⟩).any test := by
  have hcells : pool.weight (fun value => if test value then 1 else 0)
      = pool.cells.toList.countP fun cell => cell.any fun cell => test cell.content := by
    unfold Pool.weight
    induction pool.cells.toList with
    | nil => rfl
    | cons cell rest ih =>
      rw [sumOf_cons, ih, List.countP_cons, Nat.add_comm]
      cases cell <;> rfl
  rw [hcells, ← countP_range_getElem?, Array.length_toList]
  apply List.countP_congr
  intro i _
  simp only [Pool.content?, Pool.cell?, Array.getElem?_toList]
  rcases pool.cells[i]? with _ | _ | cell <;> rfl

theorem sum_eq_sum_getD (tallies : Array Nat) :
    tallies.sum = ∑ counter ∈ Finset.range tallies.size, tallies.getD counter 0 := by
  rw [← Array.sum_toList, ← Fin.sum_univ_getElem, Finset.sum_range]
  apply Finset.sum_congr rfl
  intro counter _
  simp [Array.getD_eq_getD_getElem?]

namespace Script

open Account Holdings

/-! ## §2 Owners that were made -/

/-- A foreign owner and the place of its counter. -/
structure Foreign where
  owner : OwnerRef
  counter : Nat
  deriving DecidableEq

namespace Session

/-- The foreign owners that a command makes. -/
def makes (s : Session) : Command → List Foreign
  | .payload (.counted _ _ counter) =>
    let opened := PayloadCommand.counterOf s counter
    [{ owner := (opened.1.holdings.newOwner (.tally opened.2)).2, counter := opened.2 }]
  | _ => []

/-- The foreign owners that a row of commands makes, the first in front. -/
def made (s : Session) : List Command → List Foreign
  | [] => []
  | command :: rest => s.makes command ++ (command.run s).1.made rest

theorem makes_of_quiet (s : Session) {command : Command}
    (hquiet : ∀ p bytes counter, command ≠ .payload (.counted p bytes counter)) :
    s.makes command = [] := by
  cases command with
  | payload command =>
    cases command with
    | counted p bytes counter => exact absurd rfl (hquiet p bytes counter)
    | _ => rfl
  | _ => rfl

end Session

/-- What a row of counters comes to is what is counted over all of them. -/
theorem sum_countP_counter (row : List Foreign) (test : Foreign → Prop) [DecidablePred test]
    {size : Nat} (hcounter : ∀ f ∈ row, f.counter < size) :
    (∑ counter ∈ Finset.range size, row.countP fun f => f.counter = counter ∧ test f)
      = row.countP fun f => test f := by
  induction row with
  | nil => simp
  | cons first rest ih =>
    have hrest := ih fun f hf => hcounter f (List.mem_cons_of_mem _ hf)
    have hfirst : first.counter ∈ Finset.range size :=
      Finset.mem_range.mpr (hcounter first List.mem_cons_self)
    simp only [List.countP_cons, Finset.sum_add_distrib, hrest]
    -- The first one is counted under its own counter only.
    rw [Finset.sum_eq_single_of_mem first.counter hfirst]
    · simp
    · intro other _ hother
      simp [Ne.symm hother]

/-! ## §3 The reckoning -/

/-- Every foreign owner that is kept was made, and the tally of a counter and the owners pledged to
it are as many as were made for it. -/
structure Reckoned (h : Holdings) (counters : KeyedList Nat) (made : List Foreign) : Prop where
  distinct : (made.map Foreign.owner).Nodup
  owner_lt : ∀ f ∈ made, f.owner.index < h.owners.cells.size
  counter_lt : ∀ f ∈ made, f.counter < h.tallies.size
  named_lt : ∀ name counter, counters.find? name = some counter → counter < h.tallies.size
  duty : ∀ f ∈ made, ∀ duty, h.owners.content? f.owner = some duty → duty = .tally f.counter
  known : ∀ o counter, h.owners.content? o = some (.tally counter) →
    { owner := o, counter } ∈ made
  balance : ∀ counter < h.tallies.size,
    h.tallies.getD counter 0 + h.pledged counter = made.countP fun f => f.counter = counter

namespace Reckoned

variable {h h' : Holdings} {counters : KeyedList Nat} {made : List Foreign}

theorem start (identities : List UInt64) : Reckoned (Holdings.start identities) {} [] where
  distinct := List.nodup_nil
  owner_lt := nofun
  counter_lt := nofun
  named_lt := nofun
  duty := nofun
  known o counter hkept := by simp [Holdings.start, Pool.content?, Pool.cell?] at hkept
  balance counter hcounter := absurd hcounter (Nat.not_lt_zero counter)

/-- The reckoning is kept if nobody is made and whoever goes is counted. -/
theorem settled (hreckoned : Reckoned h counters made) (hsettles : h.Settles h')
    (hgrows : h.owners.Grows h'.owners) : Reckoned h' counters made where
  distinct := hreckoned.distinct
  owner_lt f hf := (hreckoned.owner_lt f hf).trans_le hgrows.size_le
  counter_lt f hf := hsettles.size_eq.symm ▸ hreckoned.counter_lt f hf
  named_lt name counter hfind := hsettles.size_eq.symm ▸ hreckoned.named_lt name counter hfind
  duty f hf duty hduty :=
    hreckoned.duty f hf duty (hgrows.content f.owner duty (hreckoned.owner_lt f hf) hduty)
  known o counter hkept := hreckoned.known o counter (hsettles.kept o counter hkept)
  balance counter hcounter := by
    have hcounter' : counter < h.tallies.size := hsettles.size_eq ▸ hcounter
    exact (hsettles.balance counter hcounter').trans (hreckoned.balance counter hcounter')

/-- Nobody is pledged to a counter that is not there yet. -/
theorem pledged_eq_zero (hreckoned : Reckoned h counters made) {counter : Nat}
    (hcounter : h.tallies.size ≤ counter) : h.pledged counter = 0 := by
  by_contra hne
  obtain ⟨o, duty, hduty, hpos⟩ := Pool.exists_of_weight_pos (Nat.pos_of_ne_zero hne)
  unfold pledge at hpos
  split at hpos
  · next heq =>
    subst heq
    exact Nat.not_lt.mpr hcounter (hreckoned.counter_lt _ (hreckoned.known o counter hduty))
  · exact absurd hpos (Nat.lt_irrefl 0)

theorem countP_eq_zero (hreckoned : Reckoned h counters made) {counter : Nat}
    (hcounter : h.tallies.size ≤ counter) :
    (made.countP fun f => f.counter = counter) = 0 := by
  rw [List.countP_eq_zero]
  intro f hf hsame
  have hlt := hreckoned.counter_lt f hf
  rw [of_decide_eq_true hsame] at hlt
  exact Nat.not_lt.mpr hcounter hlt

/-- A new counter is even with those that were made for it, since there are none. -/
theorem opened (hreckoned : Reckoned h counters made) (name : String) :
    Reckoned h.newCounter.1 (counters.insert name h.newCounter.2) made := by
  have hsize : h.newCounter.1.tallies.size = h.tallies.size + 1 := Array.size_push 0
  refine
    { distinct := hreckoned.distinct
      owner_lt := hreckoned.owner_lt
      counter_lt := fun f hf => ?_
      named_lt := fun other counter hfind => ?_
      duty := hreckoned.duty
      known := hreckoned.known
      balance := fun counter hcounter => ?_ }
  · have hlt := hreckoned.counter_lt f hf
    omega
  · by_cases hname : other = name
    · subst hname
      rw [KeyedList.find?_insert_self] at hfind
      cases hfind
      exact hsize.symm ▸ Nat.lt_succ_self _
    · rw [KeyedList.find?_insert_of_ne _ _ hname] at hfind
      have hlt := hreckoned.named_lt other counter hfind
      omega
  · show (h.tallies.push 0).getD counter 0 + h.pledged counter = _
    by_cases hnew : counter = h.tallies.size
    · have htally : (h.tallies.push 0).getD counter 0 = 0 := by
        simp [Array.getD_eq_getD_getElem?, hnew]
      rw [htally, hreckoned.pledged_eq_zero hnew.ge, hreckoned.countP_eq_zero hnew.ge]
    · have hlt : counter < h.tallies.size := by omega
      have htally : (h.tallies.push 0).getD counter 0 = h.tallies.getD counter 0 := by
        simp [Array.getD_eq_getD_getElem?, Array.getElem?_push, hnew]
      rw [htally, hreckoned.balance counter hlt]

/-- An owner that is made is pledged to its counter. -/
theorem engaged (hreckoned : Reckoned h counters made) {counter : Nat}
    (hcounter : counter < h.tallies.size) :
    Reckoned (h.newOwner (.tally counter)).1 counters
      (made ++ [{ owner := (h.newOwner (.tally counter)).2, counter }]) := by
  have hcontent : ∀ o, (h.newOwner (.tally counter)).1.owners.content? o
      = if o = (h.newOwner (.tally counter)).2 then some (.tally counter)
        else h.owners.content? o := Pool.content?_insert h.owners (.tally counter)
  have hsize : (h.newOwner (.tally counter)).1.owners.cells.size = h.owners.cells.size + 1 :=
    Array.size_push _
  -- The new owner has the first place that nobody had before.
  have hnew : ∀ f ∈ made, f.owner ≠ (h.newOwner (.tally counter)).2 := by
    intro f hf hsame
    have hlt := hreckoned.owner_lt f hf
    rw [hsame] at hlt
    exact Nat.lt_irrefl _ hlt
  refine
    { distinct := ?_
      owner_lt := fun f hf => ?_
      counter_lt := fun f hf => ?_
      named_lt := hreckoned.named_lt
      duty := fun f hf duty hduty => ?_
      known := fun o other hkept => ?_
      balance := fun other hother => ?_ }
  · rw [List.map_append, List.nodup_append]
    refine ⟨hreckoned.distinct, List.nodup_singleton _, ?_⟩
    intro o ho o' ho'
    obtain ⟨f, hf, rfl⟩ := List.mem_map.mp ho
    obtain rfl := List.mem_singleton.mp ho'
    exact hnew f hf
  · rcases List.mem_append.mp hf with hf | hf
    · exact (hreckoned.owner_lt f hf).trans (hsize.symm ▸ Nat.lt_succ_self _)
    · obtain rfl := List.mem_singleton.mp hf
      exact hsize.symm ▸ Nat.lt_succ_self _
  · rcases List.mem_append.mp hf with hf | hf
    · exact hreckoned.counter_lt f hf
    · obtain rfl := List.mem_singleton.mp hf
      exact hcounter
  · rw [hcontent] at hduty
    rcases List.mem_append.mp hf with hf | hf
    · rw [if_neg (hnew f hf)] at hduty
      exact hreckoned.duty f hf duty hduty
    · obtain rfl := List.mem_singleton.mp hf
      rw [if_pos rfl] at hduty
      exact (Option.some.inj hduty).symm
  · rw [hcontent] at hkept
    split at hkept
    · next hsame =>
      cases hkept
      subst hsame
      exact List.mem_append.mpr (Or.inr (List.mem_singleton_self _))
    · exact List.mem_append.mpr (Or.inl (hreckoned.known o other hkept))
  · have hweight := Pool.weight_insert (pledge other) h.owners (.tally counter)
    have hbalance := hreckoned.balance other hother
    have hpledge : pledge other (.tally counter) = if counter = other then 1 else 0 := by
      simp [pledge]
    show h.tallies.getD other 0 + (h.owners.insert (.tally counter)).1.weight (pledge other) = _
    rw [hweight, hpledge, List.countP_append, ← hbalance, List.countP_singleton]
    simp [pledged, Nat.add_assoc]

/-- The owners pledged to a counter are those made for it that are kept. -/
theorem pledged_eq (hreckoned : Reckoned h counters made) (counter : Nat) :
    h.pledged counter = made.countP fun f =>
      f.counter = counter ∧ (h.owners.content? f.owner).isSome := by
  have hpledge : pledge counter
      = fun duty => if decide (duty = Duty.tally counter) then 1 else 0 := by
    funext duty
    simp [pledge]
  rw [pledged, hpledge, Pool.weight_eq_countP, List.countP_eq_length_filter,
    List.countP_eq_length_filter, ← List.length_map (fun f : Foreign => f.owner.index)]
  -- Both rows list the places of the same owners, each once.
  apply List.Perm.length_eq
  rw [List.perm_ext_iff_of_nodup (List.nodup_range.filter _)]
  · intro i
    simp only [List.mem_filter, List.mem_range, List.mem_map, Option.any_eq_true,
      decide_eq_true_eq]
    constructor
    · rintro ⟨_, duty, hduty, rfl⟩
      exact ⟨⟨⟨i⟩, counter⟩, ⟨hreckoned.known _ _ hduty, rfl, by rw [hduty]; rfl⟩, rfl⟩
    · rintro ⟨f, ⟨hf, rfl, hkept⟩, rfl⟩
      obtain ⟨duty, hduty⟩ := Option.isSome_iff_exists.mp hkept
      exact ⟨hreckoned.owner_lt f hf, duty, hduty, hreckoned.duty f hf duty hduty⟩
  · have hindex : Function.Injective (Ref.index : OwnerRef → Nat) := by
      rintro ⟨i⟩ ⟨i'⟩ hsame
      exact congrArg Ref.mk hsame
    have hplaces := hreckoned.distinct.map hindex
    rw [List.map_map] at hplaces
    exact hplaces.sublist (List.filter_sublist.map _)

/-- The tally of a counter is the number of the owners made for it that are gone. -/
theorem tally_eq (hreckoned : Reckoned h counters made) (counter : Nat) :
    h.tallies.getD counter 0 = made.countP fun f =>
      f.counter = counter ∧ ¬(h.owners.content? f.owner).isSome := by
  have hsplit := countP_and_not made (fun f : Foreign => f.counter = counter)
    fun f => (h.owners.content? f.owner).isSome
  by_cases hcounter : counter < h.tallies.size
  · have hbalance := hreckoned.balance counter hcounter
    rw [hreckoned.pledged_eq counter] at hbalance
    omega
  · -- Nobody was made for a counter that is not there.
    have hnobody := hreckoned.countP_eq_zero (Nat.le_of_not_lt hcounter)
    have htally : h.tallies.getD counter 0 = 0 := by
      simp [Array.getD_eq_getD_getElem?, Nat.le_of_not_lt hcounter]
    omega

end Reckoned

/-! ## §4 Commands -/

namespace Session

variable {s : Session} {d : Dealings} {made : List Foreign}

/-- The counter of a name is there once the name was looked up. -/
theorem reckoned_counterOf (hreckoned : Reckoned s.holdings s.counters made) (name : String) :
    Reckoned (PayloadCommand.counterOf s name).1.holdings
        (PayloadCommand.counterOf s name).1.counters made ∧
      (PayloadCommand.counterOf s name).2
        < (PayloadCommand.counterOf s name).1.holdings.tallies.size := by
  unfold PayloadCommand.counterOf
  split
  · next counter hfind => exact ⟨hreckoned, hreckoned.named_lt name counter hfind⟩
  · have hopened := hreckoned.opened name
    exact ⟨hopened, hopened.named_lt name _ (KeyedList.find?_insert_self _ _ _)⟩

/-- Every command keeps the reckoning. -/
theorem reckoned_run (hs : (s.account d).Consistent)
    (hreckoned : Reckoned s.holdings s.counters made) (command : Command) :
    Reckoned (command.run s).1.holdings (command.run s).1.counters (made ++ s.makes command) := by
  rcases counted_or_quiet command with ⟨p, bytes, counter, rfl⟩ | hquiet
  · obtain ⟨hopened, hcounter⟩ := reckoned_counterOf hreckoned counter
    have hengaged := hopened.engaged hcounter
    have hrun := counted_run ((engaged_run s d counter).consistent hs) p bytes
    exact hengaged.settled hrun.settles hrun.run.owners_grow
  · have hrun := quiet_run hs hquiet
    rw [makes_of_quiet s hquiet, List.append_nil, Command.counters_run s hquiet]
    exact hreckoned.settled hrun.settles hrun.run.owners_grow

/-- Every script keeps the reckoning. -/
theorem reckoned_after (hs : (s.account d).Consistent)
    (hreckoned : Reckoned s.holdings s.counters made) (commands : List Command) :
    Reckoned (s.after commands).holdings (s.after commands).counters
      (made ++ s.made commands) := by
  induction commands generalizing s d made with
  | nil =>
    rw [Session.made, List.append_nil]
    exact hreckoned
  | cons command rest ih =>
    rw [Session.made, ← List.append_assoc]
    exact ih ((command_run hs command).consistent hs) (reckoned_run hs hreckoned command)

/-! ## §5 Owners and payloads -/

/-- A foreign owner that was made is kept exactly as long as a payload refers to it. -/
theorem refers_iff_kept (hs : (s.account d).Consistent)
    (hreckoned : Reckoned s.holdings s.counters made) {f : Foreign} (hf : f ∈ made) :
    s.Refers f.owner ↔ s.holdings.owners.content? f.owner = some (.tally f.counter) := by
  rw [refers_iff hs]
  constructor
  · rintro ⟨duty, hduty⟩
    rw [hduty, hreckoned.duty f hf duty hduty]
  · exact fun hkept => ⟨_, hkept⟩

theorem refers_iff_isSome (hs : (s.account d).Consistent) (o : OwnerRef) :
    s.Refers o ↔ (s.holdings.owners.content? o).isSome := by
  rw [refers_iff hs, Option.isSome_iff_exists]

open Classical in
/-- Every foreign owner that was made is kept as long as a payload refers to it, and has been
counted once if none does. -/
structure CountsOnce (s : Session) (made : List Foreign) : Prop where
  distinct : (made.map Foreign.owner).Nodup
  /-- There are no others. -/
  known : ∀ o counter, s.holdings.owners.content? o = some (.tally counter) →
    { owner := o, counter } ∈ made
  kept_iff : ∀ f ∈ made,
    s.holdings.owners.content? f.owner = some (.tally f.counter) ↔ s.Refers f.owner
  tally_eq : ∀ counter, s.holdings.tallies.getD counter 0
    = made.countP fun f => f.counter = counter ∧ ¬s.Refers f.owner
  /-- Those that were counted are those that were made, less those that are referred to. -/
  total : s.holdings.tallies.sum = made.length - made.countP fun f => s.Refers f.owner

open Classical in
/-- In one step from a session to the next, an owner is counted if a payload referred to it before
and none does after. -/
structure CountsOnTime (s s' : Session) (made new : List Foreign) : Prop where
  /-- What no payload refers to is not referred to again. -/
  gone : ∀ f ∈ made, ¬s.Refers f.owner → ¬s'.Refers f.owner
  /-- A payload refers to an owner that is new. -/
  fresh : ∀ f ∈ new, s'.Refers f.owner
  tally_step : ∀ counter, s'.holdings.tallies.getD counter 0 = s.holdings.tallies.getD counter 0
    + made.countP fun f => f.counter = counter ∧ s.Refers f.owner ∧ ¬s'.Refers f.owner

/-- A copy without owners prolongs no owner's life: as far as owners go, making it comes to dropping
what its variable held. -/
structure CopiesFreely (s : Session) : Prop where
  detached : ∀ p target payload, s.payloads.find? p = some payload →
    (Command.run s (.payload (.detach p target))).1.holdings
        = (Command.run s (.payload (.drop target))).1.holdings ∧
      ∃ copy, (Command.run s (.payload (.detach p target))).1.payloads.find? target = some copy ∧
        copy.owner = none
  snapshot : ∀ name target status, s.statuses.find? name = some status →
    (Command.run s (.status (.snapshot name target))).1.holdings
        = (Command.run s (.status (.drop target))).1.holdings ∧
      ∃ copy, (Command.run s (.status (.snapshot name target))).1.statuses.find? target
          = some copy ∧ ∀ payload ∈ copy.payloads, payload.owner = none

theorem countsOnce (hs : (s.account d).Consistent)
    (hreckoned : Reckoned s.holdings s.counters made) : s.CountsOnce made := by
  classical
  have htally : ∀ counter, s.holdings.tallies.getD counter 0
      = made.countP fun f => f.counter = counter ∧ ¬s.Refers f.owner := by
    intro counter
    rw [hreckoned.tally_eq counter]
    apply List.countP_congr
    intro f _
    simp only [decide_eq_true_eq, refers_iff_isSome hs]
  refine
    { distinct := hreckoned.distinct
      known := hreckoned.known
      kept_iff := fun f hf => (refers_iff_kept hs hreckoned hf).symm
      tally_eq := fun counter => ?_
      total := ?_ }
  · convert htally counter
  · have hsum : s.holdings.tallies.sum = made.countP fun f => ¬s.Refers f.owner := by
      rw [sum_eq_sum_getD, Finset.sum_congr rfl fun counter _ => htally counter]
      exact sum_countP_counter made _ hreckoned.counter_lt
    have hall := countP_and_not made (fun _ => True) fun f => s.Refers f.owner
    simp only [true_and, decide_true, List.countP_true] at hall
    rw [hsum]
    omega

/-- A payload is bound with the owner that it was made with. -/
theorem refers_of_makes (s : Session) (command : Command)
    (hs : ((command.run s).1.account d).Consistent) {f : Foreign} (hf : f ∈ s.makes command) :
    (command.run s).1.Refers f.owner := by
  rcases counted_or_quiet command with ⟨p, bytes, counter, rfl⟩ | hquiet
  · obtain rfl := List.mem_singleton.mp hf
    have hfind : ((Command.payload (.counted p bytes counter)).run s).1.payloads.find? p = some _ :=
      KeyedList.find?_insert_self _ _ _
    have hmem := Multiset.mem_of_le (payload_shares_le hfind)
      (Multiset.mem_coe.mpr (mem_payload_shares.mpr rfl))
    obtain ⟨duty, hduty⟩ := Pool.exists_content_of_holders_pos (hs.holders_pos hmem)
    exact refers_of_content hs hduty
  · rw [makes_of_quiet s hquiet] at hf
    cases hf

theorem countsOnTime (hs : (s.account d).Consistent)
    (hreckoned : Reckoned s.holdings s.counters made) (command : Command) :
    s.CountsOnTime (command.run s).1 made (s.makes command) := by
  classical
  have hrun := command_run hs command
  have hs' := hrun.consistent hs
  have hreckoned' := reckoned_run hs hreckoned command
  have hgone : ∀ f ∈ made, ¬s.Refers f.owner → ¬(command.run s).1.Refers f.owner := by
    intro f hf hrefers hrefers'
    have hkept' := (refers_iff_kept hs' hreckoned' (List.mem_append_left _ hf)).mp hrefers'
    have hkept := hrun.run.owners_grow.content f.owner _ (hreckoned.owner_lt f hf) hkept'
    exact hrefers ((refers_iff_kept hs hreckoned hf).mpr hkept)
  have hfresh : ∀ f ∈ s.makes command, (command.run s).1.Refers f.owner :=
    fun f hf => refers_of_makes s command hs' hf
  refine { gone := hgone, fresh := hfresh, tally_step := fun counter => ?_ }
  have hbefore := (countsOnce hs hreckoned).tally_eq counter
  have hafter := (countsOnce hs' hreckoned').tally_eq counter
  have hnew : ((s.makes command).countP fun f =>
      f.counter = counter ∧ ¬(command.run s).1.Refers f.owner) = 0 := by
    rw [List.countP_eq_zero]
    intro f hf hboth
    exact (of_decide_eq_true hboth).2 (hfresh f hf)
  -- Of those that nobody refers to now, some were referred to before.
  have hsplit := countP_and_not made
    (fun f => f.counter = counter ∧ ¬(command.run s).1.Refers f.owner) fun f => s.Refers f.owner
  have hlast : (made.countP fun f =>
      (f.counter = counter ∧ ¬(command.run s).1.Refers f.owner) ∧ s.Refers f.owner)
      = made.countP fun f =>
        f.counter = counter ∧ s.Refers f.owner ∧ ¬(command.run s).1.Refers f.owner := by
    apply List.countP_congr
    intro f _
    simp only [decide_eq_true_eq]
    tauto
  have hearlier : (made.countP fun f =>
      (f.counter = counter ∧ ¬(command.run s).1.Refers f.owner) ∧ ¬s.Refers f.owner)
      = made.countP fun f => f.counter = counter ∧ ¬s.Refers f.owner := by
    apply List.countP_congr
    intro f hf
    have hgone := hgone f hf
    simp only [decide_eq_true_eq]
    tauto
  rw [List.countP_append] at hafter
  omega

theorem copiesFreely (s : Session) : s.CopiesFreely where
  detached p target payload hfind := by
    refine ⟨?_, payload.detached, ?_, rfl⟩
    · simp only [Command.run, PayloadCommand.run, onPayload, given, hfind, showAndBindPayload,
        bindPayload, withHoldings]
      cases s.payloads.find? target <;> rfl
    · simp only [Command.run, PayloadCommand.run, onPayload, given, hfind]
      exact KeyedList.find?_insert_self _ _ _
  snapshot name target status hfind := by
    refine ⟨?_, status.snapshot, ?_, fun payload hslot => ?_⟩
    · simp only [Command.run, StatusCommand.run, onStatus, given, hfind, showAndBind, bindStatus,
        withHoldings]
      cases s.statuses.find? target <;> rfl
    · simp only [Command.run, StatusCommand.run, onStatus, given, hfind]
      exact KeyedList.find?_insert_self _ _ _
    · cases howner : payload.owner with
      | none => rfl
      | some o =>
        -- A snapshot holds no share, and so does none of its slots.
        have hmem := Multiset.mem_coe.mpr (mem_status_shares.mpr ⟨payload, hslot, howner⟩)
        rw [Status.shares_snapshot] at hmem
        exact absurd hmem (Multiset.notMem_zero _)

/-- After every script, every foreign owner that was made has been counted once if no payload
refers to it, and not yet if one does; and the next command counts those that it was the last to
refer to. -/
theorem dropped_once (identities : List UInt64) (bridges : List Bridge)
    (commands : List Command) :
    ((start identities bridges).after commands).CountsOnce
        ((start identities bridges).made commands) ∧
      (∀ command, ((start identities bridges).after commands).CountsOnTime
        (command.run ((start identities bridges).after commands)).1
        ((start identities bridges).made commands)
        (((start identities bridges).after commands).makes command)) ∧
      ((start identities bridges).after commands).CopiesFreely := by
  have hs := after_consistent identities bridges commands
  have hreckoned := reckoned_after (start_consistent identities bridges)
    (Reckoned.start identities) commands
  exact ⟨countsOnce hs hreckoned, countsOnTime hs hreckoned, copiesFreely _⟩

/-- Two owners of one counter: the first is kept by a status that was made an object, and the second
goes when its only payload is replaced by a copy without it. -/
example : ((start [7] []).after
    [.payload (.counted "p" [1] "gone"),
      .payload (.counted "q" [2] "gone"),
      .status (.new "s" .aborted ""),
      .status (.setPayload "s" "key" "p"),
      .payload (.drop "p"),
      .object (.new "o" (.status "s")),
      .payload (.detach "q" "q")]).holdings.tallies = #[1] := by
  decide +kernel

end Session

end Script

end Ferry
