import Ferry.Proofs.Ownership.Commands

/-!
# Scripts as runs

Every command of a script comes down to a careful run of elementary steps in which the shares in
hand are those of the variables.  What the three direct commands dealt with their registries is
noted.  The run is quiet unless the command makes an owner that counts.

Main statements: `quiet_run` and `counted_run`, what one command comes down to; and `after_careful`,
that a script is a careful run from the session that it starts from to the session that it comes to.

## Sections

1. Direct dealings.
2. Scripts.
-/

namespace Ferry.Script

open Session Holdings

/-! ## §1 Direct dealings -/

/-- Notes that the entry of a handle that was looked up was given up. -/
def withdrawFound (d : Dealings) (r : Nat) : Option Handle → Dealings
  | some handle => d.withdraw r handle
  | none => d

namespace Session

/-- The account of a session: what its variables hold is in hand. -/
def account (s : Session) (d : Dealings) : Account :=
  ⟨s.holdings, s.shares, d⟩

/-- What was dealt with registries directly once a command has come to a reply. -/
def dealt (s : Session) (d : Dealings) : Command → Reply → Dealings
  | .object (.store _ _ r), .answer (.handle handle) => d.deposit r handle
  | .object (.fetch h r _), .answer _ => withdrawFound d r (s.handles.find? h)
  | .object (.release h r), .answer _ => withdrawFound d r (s.handles.find? h)
  | _, _ => d

/-- What was dealt with registries directly once a row of commands has run. -/
def dealings (s : Session) (d : Dealings) : List Command → Dealings
  | [] => d
  | command :: rest =>
    (command.run s).1.dealings (s.dealt d command (command.run s).2) rest

theorem dealings_append (s : Session) (d : Dealings) (first second : List Command) :
    s.dealings d (first ++ second) = (s.after first).dealings (s.dealings d first) second := by
  induction first generalizing s d with
  | nil => rfl
  | cons command rest ih => exact ih (command.run s).1 (s.dealt d command (command.run s).2)

variable {s s' : Session} {d : Dealings}

theorem Passes.run (hpasses : Passes s 0 s' 0) (hs : (s.account d).Consistent) :
    Account.QuietRun (s.account d) (s'.account d) := by
  have hrun := hpasses 0 d (by simpa [account] using hs)
  simpa [account] using hrun

theorem deposit_run (hs : (s.account d).Consistent) {r : Nat}
    (hr : r < s.holdings.registries.size) (o h : String) :
    Account.QuietRun (s.account d) ((ObjectCommand.perform s (.store o h r)).1.account
      (s.dealt d (.object (.store o h r)) (ObjectCommand.perform s (.store o h r)).2)) := by
  simp only [ObjectCommand.perform, onItem]
  cases hheld : s.heldItem? o with
  | none => exact Account.QuietRun.refl _
  | some ref =>
    -- The variable keeps its item, and the entry gets a share of its own.
    have hpos := hs.holders_pos (item_mem_shares hheld)
    have hshare : Account.QuietStep (s.account d) _ := .share _ hpos
    exact hshare.quiet.trans (Account.QuietStep.deposit
      (h := s.holdings.retainObject (.item ref)) hr (.item ref)).quiet

/-- What is fetched directly is noted and then given up. -/
theorem withdraw_run (hs : (s.account d).Consistent) {r : Nat} {handle : Handle}
    {x : Registry Object} {object : Object}
    (hfetch : (s.holdings.registry r).fetch handle = .ok (x, object)) :
    Account.QuietRun (s.account d)
      ((s.withHoldings ((s.holdings.setRegistry r x).dropObject object)).account
        (d.withdraw r handle)) := by
  have hwithdraw : Account.QuietRun (s.account d) _ :=
    (Account.QuietStep.withdraw hfetch).quiet
  -- The share that came out of the entry is given up.
  have hdrop := dropObject_transfer (s.holdings.setRegistry r x) object s.shares
    (d.withdraw r handle) (hwithdraw.consistent hs)
  rw [zero_add] at hdrop
  exact hwithdraw.trans hdrop

theorem fetchIf_eq_ok_iff {registry x : Registry Object} {test : Object → Bool} {mismatch : Fault}
    {handle : Handle} {object : Object} :
    registry.fetchIf test mismatch handle = .ok (x, object) ↔
      registry.fetch handle = .ok (x, object) ∧ test object = true := by
  rw [Registry.fetch_eq_ok_iff]
  unfold Registry.fetchIf
  cases hborrow : registry.borrowIf test mismatch handle with
  | error fault =>
    simp only [reduceCtorEq, false_iff]
    rintro ⟨⟨hfound, _⟩, htest⟩
    rw [borrowIf_eq_ok_iff.mpr ⟨hfound, htest⟩] at hborrow
    cases hborrow
  | ok other =>
    obtain ⟨hfound, htest⟩ := borrowIf_eq_ok_iff.mp hborrow
    simp only [Except.ok.injEq, Prod.mk.injEq, hfound]
    constructor
    · rintro ⟨rfl, rfl⟩
      exact ⟨⟨rfl, rfl⟩, htest⟩
    · rintro ⟨⟨rfl, rfl⟩, _⟩
      exact ⟨rfl, rfl⟩

theorem fetch_run (hs : (s.account d).Consistent) (h : String) (r : Nat)
    (type : Option ObjectType) :
    Account.QuietRun (s.account d) ((ObjectCommand.perform s (.fetch h r type)).1.account
      (s.dealt d (.object (.fetch h r type)) (ObjectCommand.perform s (.fetch h r type)).2)) := by
  simp only [ObjectCommand.perform, onHandle]
  cases hfind : s.handles.find? h with
  | none => exact Account.QuietRun.refl _
  | some handle =>
    -- The handle was looked up, so the answer tells which entry went.
    have hdealt : ∀ answer, s.dealt d (.object (.fetch h r type)) (.answer answer)
        = d.withdraw r handle := by
      intro answer
      simp [dealt, hfind, withdrawFound]
    cases type with
    | none =>
      simp only [given, Holdings.fetch]
      rcases hfetch : (s.holdings.registry r).fetch handle with fault | ⟨x, object⟩
      · exact Account.QuietRun.refl _
      · simp only [handOver, showObject, hdealt]
        exact withdraw_run hs hfetch
    | some type =>
      simp only [given, Holdings.fetchAs]
      rcases hfetch : (s.holdings.registry r).fetchIf (s.holdings.hasType type)
        (.typeMismatch type) handle with fault | ⟨x, object⟩
      · exact Account.QuietRun.refl _
      · simp only [handOver, showObject, hdealt]
        exact withdraw_run hs (fetchIf_eq_ok_iff.mp hfetch).1

theorem release_run (hs : (s.account d).Consistent) (h : String) (r : Nat) :
    Account.QuietRun (s.account d) ((ObjectCommand.perform s (.release h r)).1.account
      (s.dealt d (.object (.release h r)) (ObjectCommand.perform s (.release h r)).2)) := by
  simp only [ObjectCommand.perform, onHandle]
  cases hfind : s.handles.find? h with
  | none => exact Account.QuietRun.refl _
  | some handle =>
    simp only [given, Holdings.release, Holdings.fetch]
    rcases hfetch : (s.holdings.registry r).fetch handle with fault | ⟨x, object⟩
    · exact Account.QuietRun.refl _
    · simp only [handOver, dealt, hfind, withdrawFound]
      exact withdraw_run hs hfetch

end Session

/-! ## §2 Scripts -/

namespace Session

variable {s : Session} {d : Dealings}

theorem object_run (hs : (s.account d).Consistent) (command : ObjectCommand) :
    Account.QuietRun (s.account d) ((command.run s).1.account
      (s.dealt d (.object command) (command.run s).2)) := by
  -- A command on a registry that is not there changes nothing.
  have hperform : (∀ r, command.registry? = some r → r < s.holdings.registries.size) →
      Account.QuietRun (s.account d) ((ObjectCommand.perform s command).1.account
        (s.dealt d (.object command) (ObjectCommand.perform s command).2)) := by
    intro hr
    cases command with
    | store o h r => exact deposit_run hs (hr r rfl) o h
    | fetch h r type => exact fetch_run hs h r type
    | release h r => exact release_run hs h r
    | _ => exact (ObjectCommand.perform_passes s _ hr rfl).run hs
  unfold ObjectCommand.run
  split
  · rename_i hnone
    exact hperform fun r hr => by simp [hnone] at hr
  · rename_i r hsome
    split
    · rename_i hr
      refine hperform fun other hother => ?_
      rw [hsome] at hother
      cases hother
      exact hr
    · cases command <;> exact Account.QuietRun.refl _

/-- One command makes an owner that counts, and the others do not. -/
theorem counted_or_quiet (command : Command) :
    (∃ p bytes counter, command = .payload (.counted p bytes counter)) ∨
      ∀ p bytes counter, command ≠ .payload (.counted p bytes counter) := by
  by_cases hcounted : ∃ p bytes counter, command = .payload (.counted p bytes counter)
  · exact Or.inl hcounted
  · exact Or.inr fun p bytes counter hsame => hcounted ⟨p, bytes, counter, hsame⟩

/-- The account of a session once the owner of a payload with a counter is made. -/
def engaged (s : Session) (d : Dealings) (counter : String) : Account :=
  let opened := PayloadCommand.counterOf s counter
  let owned := opened.1.holdings.newOwner (.tally opened.2)
  ⟨owned.1, {Share.owner owned.2} + opened.1.shares, d⟩

/-- A counter that has no name yet is opened, and the owner is made. -/
theorem engaged_run (s : Session) (d : Dealings) (counter : String) :
    Account.CarefulRun (s.account d) (s.engaged d counter) := by
  have hopened : Account.CarefulRun (s.account d)
      ((PayloadCommand.counterOf s counter).1.account d) := by
    unfold PayloadCommand.counterOf
    split
    · exact Account.CarefulRun.refl _
    · exact Account.CarefulStep.newCounter.careful
  exact hopened.trans (Account.CarefulStep.newTally _).careful

/-- Then the payload is bound. -/
theorem counted_run {counter : String} (hs : (s.engaged d counter).Consistent) (p : String)
    (bytes : List UInt8) :
    Account.QuietRun (s.engaged d counter)
      (((PayloadCommand.counted p bytes counter).run s).1.account d) := by
  have hpasses := PayloadCommand.counted_passes (PayloadCommand.counterOf s counter).1 p bytes
    (PayloadCommand.counterOf s counter).2
  have hrun := hpasses 0 d (by rw [add_zero]; exact hs)
  rw [add_zero, zero_add, add_zero] at hrun
  exact hrun

/-- Any other command is a quiet run. -/
theorem quiet_run (hs : (s.account d).Consistent) {command : Command}
    (hquiet : ∀ p bytes counter, command ≠ .payload (.counted p bytes counter)) :
    Account.QuietRun (s.account d) ((command.run s).1.account
      (s.dealt d command (command.run s).2)) := by
  cases command with
  | object command => exact object_run hs command
  | status command => exact (StatusCommand.run_passes s command).run hs
  | payload command =>
    refine (PayloadCommand.run_passes s fun p bytes counter hsame => ?_).run hs
    exact hquiet p bytes counter (congrArg Command.payload hsame)
  | exception command => exact (ExceptionCommand.run_passes s command).run hs
  | outline command => exact (OutlineCommand.run_passes s command).run hs
  | bridge command => exact (BridgeCommand.run_passes s command).run hs

/-- One command is a careful run. -/
theorem command_run (hs : (s.account d).Consistent) (command : Command) :
    Account.CarefulRun (s.account d) ((command.run s).1.account
      (s.dealt d command (command.run s).2)) := by
  rcases counted_or_quiet command with ⟨p, bytes, counter, rfl⟩ | hquiet
  · have hengaged := engaged_run s d counter
    exact hengaged.trans (counted_run (hengaged.consistent hs) p bytes).careful
  · exact (quiet_run hs hquiet).careful

/-- A script is a careful run. -/
theorem after_careful (hs : (s.account d).Consistent) (commands : List Command) :
    Account.CarefulRun (s.account d) ((s.after commands).account (s.dealings d commands)) := by
  induction commands generalizing s d with
  | nil => exact Account.CarefulRun.refl _
  | cons command rest ih =>
    have hfirst := command_run hs command
    exact hfirst.trans (ih (hfirst.consistent hs))

/-- A script is a run. -/
theorem after_run (hs : (s.account d).Consistent) (commands : List Command) :
    Account.Run (s.account d) ((s.after commands).account (s.dealings d commands)) :=
  (after_careful hs commands).run

end Session

end Ferry.Script
