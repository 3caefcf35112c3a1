import Ferry.Proofs.Ownership.Confluence
import Ferry.Script.Run
import Mathlib.Data.List.Basic

/-!
# Letting go of variables in any order

Statuses, payloads, exceptions and objects may be dropped, and handles may be released, in any
order: what is left alive is the same.  Which of two ways an entry goes may depend on the order, and
so may the order in which slots become free.

What a command lets go is fixed before any other command is run, since the variables are different
ones.  So a row of commands comes down to a list of tasks, and tasks may be carried out in any
order.

Main statements: `after_letsGo`, the tasks of a row of commands, and `letting_go_commutes`.

## Sections

1. Commands that let go.
2. A row of commands.
3. What is left.
-/

namespace Ferry.Script

open Holdings

/-! ## §1 Commands that let go -/

/-- A command that lets go drops a status, a payload, an exception or an object, or releases the
entry of a handle. -/
inductive Command.LetsGo : Command → Prop
  | status (name : String) : LetsGo (.status (.drop name))
  | payload (name : String) : LetsGo (.payload (.drop name))
  | exception (name : String) : LetsGo (.exception (.drop name))
  | object (name : String) : LetsGo (.object (.drop name))
  | release (name : String) (r : Nat) : LetsGo (.object (.release name r))

namespace Session

/-- What a command lets go. -/
def tasksOf (s : Session) : Command → List Task
  | .status (.drop name) =>
    ((s.statuses.find? name).map Status.shares).getD [] |>.map Task.share
  | .payload (.drop name) =>
    ((s.payloads.find? name).map Payload.shares).getD [] |>.map Task.share
  | .exception (.drop name) =>
    (s.exceptions.find? name).toList.map fun e => .share (.exception e)
  | .object (.drop name) => (s.heldItem? name).toList.map fun ref => .share (.item ref)
  | .object (.release name r) => (s.handles.find? name).toList.map (.entry r)
  | _ => []

/-- Releasing an entry is a task. -/
theorem holdings_release (h : Holdings) (r : Nat) (handle : Handle) :
    (h.release r handle).1 = h.carryOut [.entry r handle] := by
  simp only [release, Holdings.fetch, carryOut, discharge]
  rcases (h.registry r).fetch handle with fault | ⟨registry, object⟩
  · simp [handOver]
  · rfl

/-- A registry that is not there has no entry to give up. -/
theorem carryOut_entry_of_le {h : Holdings} {r : Nat} (hr : h.registries.size ≤ r)
    (handle : Handle) : h.carryOut [.entry r handle] = h := by
  have hfetch : ∀ found, (h.registry r).fetch handle ≠ .ok found := by
    intro found hfetch
    obtain ⟨hborrow, _⟩ := (Registry.fetch_eq_ok_iff _ found.1 _ found.2).mp hfetch
    exact Nat.not_lt.mpr hr (lt_of_borrow hborrow)
  simp only [carryOut, discharge]
  cases hresult : (h.registry r).fetch handle with
  | error fault => rw [releaseAll_nil]
  | ok found => exact absurd hresult (hfetch found)

/-- A command lets go of what it lets go of. -/
theorem run_letsGo (s : Session) {command : Command} (hletsGo : command.LetsGo) :
    (command.run s).1.holdings = s.holdings.carryOut (s.tasksOf command) := by
  cases hletsGo with
  | status name =>
    simp only [Command.run, StatusCommand.run, onStatus, tasksOf]
    cases s.statuses.find? name with
    | none => rfl
    | some status => exact (carryOut_shares s.holdings status.shares).symm
  | payload name =>
    simp only [Command.run, PayloadCommand.run, onPayload, tasksOf]
    cases s.payloads.find? name with
    | none => rfl
    | some payload => exact (carryOut_shares s.holdings payload.shares).symm
  | exception name =>
    simp only [Command.run, ExceptionCommand.run, onException, tasksOf]
    cases s.exceptions.find? name with
    | none => rfl
    | some e => rfl
  | object name =>
    simp only [Command.run, ObjectCommand.run, ObjectCommand.registry?, ObjectCommand.perform,
      tasksOf, heldItem?]
    cases s.objects.find? name with
    | none => rfl
    | some kept =>
      obtain ⟨ref, held⟩ := kept
      cases held <;> rfl
  | release name r =>
    simp only [Command.run, ObjectCommand.run, ObjectCommand.registry?, tasksOf]
    cases hfind : s.handles.find? name with
    | none =>
      split
      · simp only [ObjectCommand.perform, onHandle, hfind]
        rfl
      · rfl
    | some handle =>
      split
      · simp only [ObjectCommand.perform, onHandle, hfind, given, Option.toList_some,
          List.map_singleton, ← holdings_release]
        rcases s.holdings.release r handle with ⟨after, fault | done⟩ <;> rfl
      · next hr =>
        exact (carryOut_entry_of_le (Nat.le_of_not_lt hr) handle).symm

/-- Releasing an entry leaves the variables as they are. -/
theorem run_release (s : Session) (name : String) (r : Nat) :
    ∃ h, (Command.run s (.object (.release name r))).1 = s.withHoldings h := by
  simp only [Command.run, ObjectCommand.run, ObjectCommand.registry?]
  split
  · simp only [ObjectCommand.perform, onHandle]
    cases s.handles.find? name with
    | none => exact ⟨s.holdings, rfl⟩
    | some handle =>
      simp only [given]
      rcases s.holdings.release r handle with ⟨after, fault | done⟩
      · exact ⟨after, rfl⟩
      · exact ⟨after, rfl⟩
  · exact ⟨s.holdings, rfl⟩

/-- What a command lets go of is not changed by another one. -/
theorem tasksOf_run (s : Session) {command other : Command} (hletsGo : command.LetsGo)
    (hother : other.LetsGo) (hne : other ≠ command) :
    (command.run s).1.tasksOf other = s.tasksOf other := by
  cases hletsGo with
  | status name =>
    simp only [Command.run, StatusCommand.run, onStatus]
    cases s.statuses.find? name with
    | none => rfl
    | some status =>
      cases hother with
      | status name' =>
        have hname : name' ≠ name := fun hsame => hne (by rw [hsame])
        simp only [given, tasksOf, unbindStatus, withHoldings,
          KeyedList.find?_erase_of_ne _ hname]
      | payload _ | exception _ | object _ | release _ _ => rfl
  | payload name =>
    simp only [Command.run, PayloadCommand.run, onPayload]
    cases s.payloads.find? name with
    | none => rfl
    | some payload =>
      cases hother with
      | payload name' =>
        have hname : name' ≠ name := fun hsame => hne (by rw [hsame])
        simp only [given, tasksOf, unbindPayload, withHoldings,
          KeyedList.find?_erase_of_ne _ hname]
      | status _ | exception _ | object _ | release _ _ => rfl
  | exception name =>
    simp only [Command.run, ExceptionCommand.run, onException]
    cases s.exceptions.find? name with
    | none => rfl
    | some e =>
      cases hother with
      | exception name' =>
        have hname : name' ≠ name := fun hsame => hne (by rw [hsame])
        simp only [given, tasksOf, unbindException, withHoldings,
          KeyedList.find?_erase_of_ne _ hname]
      | status _ | payload _ | object _ | release _ _ => rfl
  | object name =>
    simp only [Command.run, ObjectCommand.run, ObjectCommand.registry?, ObjectCommand.perform]
    cases s.objects.find? name with
    | none => rfl
    | some kept =>
      cases hother with
      | object name' =>
        have hname : name' ≠ name := fun hsame => hne (by rw [hsame])
        simp only [given, tasksOf, letGoObject, heldItem?,
          KeyedList.find?_insert_of_ne _ _ hname]
      | status _ | payload _ | exception _ | release _ _ => rfl
  | release name r =>
    obtain ⟨after, hafter⟩ := run_release s name r
    rw [hafter]
    cases hother <;> rfl

/-! ## §2 A row of commands -/

/-- A row of different commands lets go of what each of them lets go of. -/
theorem after_letsGo (s : Session) {commands : List Command}
    (hletsGo : ∀ command ∈ commands, command.LetsGo) (hdistinct : commands.Nodup) :
    (s.after commands).holdings = s.holdings.carryOut (commands.flatMap s.tasksOf) := by
  induction commands generalizing s with
  | nil => rfl
  | cons command rest ih =>
    have hfirst := hletsGo command List.mem_cons_self
    have hrest : ∀ other ∈ rest, other.LetsGo := fun other hother =>
      hletsGo other (List.mem_cons_of_mem _ hother)
    obtain ⟨hnew, hdistinct⟩ := List.nodup_cons.mp hdistinct
    have htasks : rest.flatMap (command.run s).1.tasksOf = rest.flatMap s.tasksOf := by
      apply List.flatMap_congr
      intro other hother
      apply tasksOf_run s hfirst (hrest other hother)
      intro hsame
      exact hnew (hsame ▸ hother)
    have hlast := ih (command.run s).1 hrest hdistinct
    rw [htasks, run_letsGo s hfirst] at hlast
    rw [List.flatMap_cons, carryOut_append]
    exact hlast

/-! ## §3 What is left -/

/-- The same is left alive: the same live entries with the same objects in every registry, the same
number of holders of every object, exception and owner, and the same tallies of owners that have
gone. -/
structure SameLeft (h h' : Holdings) : Prop where
  borrow_eq : ∀ r handle, (h.registry r).borrow handle = (h'.registry r).borrow handle
  live_eq : h.liveCounts = h'.liveCounts
  items_eq : ∀ ref, h.items.holders ref = h'.items.holders ref
  exceptions_eq : ∀ e, h.exceptions.holders e = h'.exceptions.holders e
  owners_eq : ∀ o, h.owners.holders o = h'.owners.holders o
  tallies_eq : h.tallies = h'.tallies

theorem sameLeft_of_alike {h h' : Holdings} (halike : Alike h h') : SameLeft h h' where
  borrow_eq r handle := (halike.registry r).borrow_eq handle
  live_eq := by
    apply List.ext_getElem?
    intro r
    have hlive := (halike.registry r).live_eq
    simp only [liveCounts, List.getElem?_map, Array.getElem?_toList]
    by_cases hr : r < h.registries.size
    · have hr' : r < h'.registries.size := halike.size_eq ▸ hr
      simp only [registry, Array.getD_eq_getD_getElem?, Array.getElem?_eq_getElem hr,
        Array.getElem?_eq_getElem hr', Option.getD_some] at hlive
      simp only [Array.getElem?_eq_getElem hr, Array.getElem?_eq_getElem hr', Option.map_some,
        hlive]
    · have hr' : ¬ r < h'.registries.size := halike.size_eq ▸ hr
      simp [hr, hr']
  items_eq ref := by rw [halike.items_eq]
  exceptions_eq e := by rw [halike.exceptions_eq]
  owners_eq o := by rw [halike.owners_eq]
  tallies_eq := halike.tallies_eq

/-- It shows whether a release comes before or after other commands.  Before them it succeeds, and
after them the entry is gone; and slots become free in another order. -/
structure OrderShows (s : Session) (name : String) (r : Nat) (commands : List Command) : Prop where
  before : (Command.run s (.object (.release name r))).2 = .answer .nothing
  after : ∃ slot nonce,
    (Command.run (s.after commands) (.object (.release name r))).2 = .fault (.stale slot nonce)
  free_ne : ((s.after (.object (.release name r) :: commands)).holdings.registry r).free
    ≠ ((s.after (commands ++ [.object (.release name r)])).holdings.registry r).free

/-- A status with a token for one entry and with a counted owner is made an object, which a second
entry keeps. -/
def entwined : List Command :=
  [.object (.new "inner" (.number 5)),
    .object (.mint "inner" "p" 0),
    .payload (.counted "q" [1] "gone"),
    .status (.new "s" .aborted ""),
    .status (.setPayload "s" "token" "p"),
    .status (.setPayload "s" "counted" "q"),
    .payload (.drop "p"),
    .payload (.drop "q"),
    .object (.new "outer" (.status "s")),
    .object (.mint "outer" "t" 0),
    .object (.bindHandle "g" ⟨7, 0, 1⟩)]

/-- Lets go of the object and of the second entry, and with it of the first one. -/
def unravelling : List Command :=
  [.object (.drop "outer"), .payload (.drop "t")]

theorem orderShows_unravelling :
    OrderShows ((start [7] []).after entwined) "g" 0 unravelling where
  before := by decide +kernel
  after := ⟨0, 1, by decide +kernel⟩
  free_ne := by decide +kernel

/-- Variables may be dropped and handles released in any order: the same is left, although the
order may show. -/
theorem letting_go_commutes :
    (∀ (s : Session) {commands commands' : List Command},
      (∀ command ∈ commands, command.LetsGo) → commands.Nodup → commands.Perm commands' →
        SameLeft (s.after commands).holdings (s.after commands').holdings) ∧
    ∃ (identities : List UInt64) (script commands : List Command) (name : String) (r : Nat),
      (∀ command ∈ commands, command.LetsGo) ∧
        OrderShows ((start identities []).after script) name r commands := by
  constructor
  · intro s commands commands' hletsGo hdistinct hperm
    have hletsGo' : ∀ command ∈ commands', command.LetsGo := fun command hmem =>
      hletsGo command (hperm.mem_iff.mpr hmem)
    have htasks : (commands.flatMap s.tasksOf).Perm (commands'.flatMap s.tasksOf) :=
      hperm.flatMap_right s.tasksOf
    rw [after_letsGo s hletsGo hdistinct, after_letsGo s hletsGo' (hperm.nodup hdistinct)]
    exact sameLeft_of_alike (carryOut_perm (Alike.refl s.holdings) htasks)
  · refine ⟨[7], entwined, unravelling, "g", 0, ?_, orderShows_unravelling⟩
    intro command hmem
    simp only [unravelling, List.mem_cons, List.not_mem_nil, or_false] at hmem
    rcases hmem with rfl | rfl
    · exact .object "outer"
    · exact .payload "t"

/-- In either order no entry is left, and the counted owner has gone once. -/
theorem letting_go_commutes_unravelling :
    SameLeft
        (((start [7] []).after entwined).after
          (.object (.release "g" 0) :: unravelling)).holdings
        (((start [7] []).after entwined).after
          (unravelling ++ [.object (.release "g" 0)])).holdings ∧
      (((start [7] []).after entwined).after
        (.object (.release "g" 0) :: unravelling)).holdings.liveCounts = [0] ∧
      (((start [7] []).after entwined).after
        (unravelling ++ [.object (.release "g" 0)])).holdings.tallies = #[1] := by
  have hletsGo : ∀ command ∈ Command.object (.release "g" 0) :: unravelling,
      command.LetsGo := by
    intro command hmem
    simp only [unravelling, List.mem_cons, List.not_mem_nil, or_false] at hmem
    rcases hmem with rfl | rfl | rfl
    · exact .release "g" 0
    · exact .object "outer"
    · exact .payload "t"
  have hperm : (Command.object (.release "g" 0) :: unravelling).Perm
      (unravelling ++ [.object (.release "g" 0)]) :=
    (List.perm_append_singleton _ _).symm
  have hsame := letting_go_commutes.1 ((start [7] []).after entwined) hletsGo
    (by simp [unravelling]) hperm
  have htallies : (((start [7] []).after entwined).after
      (.object (.release "g" 0) :: unravelling)).holdings.tallies = #[1] := by decide +kernel
  refine ⟨hsame, by decide +kernel, ?_⟩
  rw [← hsame.tallies_eq]
  exact htallies

end Session

end Ferry.Script
