import Ferry.Proofs.Ownership.Exact
import Ferry.Proofs.Registry.Past

/-!
# What the registries of a session went through

Whatever a command does, also with a cascade that it sets off, comes to a registry as objects that
are stored and entries that are fetched, one after the other.  So every registry of a session has a
past, which grows from command to command.

Main statements: `Step.changes`, `Run.past`, and `wellKept_after`, that after a script the slot
table of every registry is well kept.

## Sections

1. Elementary steps.
2. Runs.
3. After a script.
-/

namespace Ferry

open Registry (Changes Past)

/-! ## §1 Elementary steps -/

namespace Holdings

variable {h : Holdings}

/-- The one registry that is exchanged changes at most. -/
theorem changes_setRegistry {r : Nat} (hr : r < h.registries.size) {x : Registry Object}
    (hx : Changes (h.registry r) x) (other : Nat) :
    Relation.ReflGen Changes (h.registry other) ((h.setRegistry r x).registry other) :=
  registry_setRegistry_cases
    (P := fun other y => Relation.ReflGen Changes (h.registry other) y) hr
    (.single hx) (fun _ _ => .refl) other

/-- Fetching an entry changes its registry. -/
theorem changes_fetch (htidy : ∀ r, (h.registry r).Tidy) {r : Nat} {handle : Handle}
    {x : Registry Object} {object : Object}
    (hfetch : (h.registry r).fetch handle = .ok (x, object)) (other : Nat) :
    Relation.ReflGen Changes (h.registry other) ((h.setRegistry r x).registry other) :=
  changes_setRegistry (vacated_of_fetch (htidy r) hfetch).1 (.fetch hfetch) other

/-- An owner that goes takes its entry with it, if the entry is there. -/
theorem changes_discharge (htidy : ∀ r, (h.registry r).Tidy) (duty : Option Duty) (other : Nat) :
    Relation.ReflGen Changes (h.registry other) ((h.discharge duty).1.registry other) := by
  rcases duty with _ | ⟨r, handle⟩ | counter
  · exact .refl
  · simp only [discharge]
    cases hfetch : (h.registry r).fetch handle with
    | error fault => exact .refl
    | ok fetched => exact changes_fetch htidy hfetch other
  · exact .refl

end Holdings

namespace Account

/-- An elementary step changes a registry once at most. -/
theorem Step.changes {a a' : Account} (hstep : Step a a') (ha : a.Consistent) (r : Nat) :
    Relation.ReflGen Changes (a.holdings.registry r) (a'.holdings.registry r) := by
  cases hstep with
  | @share h _ _ s _ =>
    rw [Holdings.registry_eq (Holdings.registries_retain h s)]
  | @letGo h rest d s =>
    cases s with
    | owner o =>
      exact Holdings.changes_discharge (h := { h with owners := (h.owners.release o).1 })
        ha.tidy _ r
    | item _ | exception _ => exact .refl
  | newItem _ | newTally _ | newCounter | newNode _ | relink _ _ _ => exact .refl
  | mint hr object | deposit hr object => exact Holdings.changes_setRegistry hr (.store _ object) r
  | withdraw hfetch => exact Holdings.changes_fetch ha.tidy hfetch r

/-! ## §2 Runs -/

/-- A run adds to the past of a registry. -/
theorem Run.past {a a' : Account} (hrun : Run a a') (ha : a.Consistent) {r : Nat}
    {past : List (Registry Object)} (hpast : Past (a.holdings.registry r) past) :
    ∃ past', Past (a'.holdings.registry r) past' ∧
      a.holdings.registry r :: past <:+ a'.holdings.registry r :: past' := by
  induction hrun with
  | refl => exact ⟨past, hpast, List.suffix_refl _⟩
  | @tail b c hfirst hlast ih =>
    obtain ⟨middle, hmiddle, hsuffix⟩ := ih
    rcases Relation.reflGen_iff _ _ _ |>.mp (hlast.changes (Run.consistent hfirst ha) r) with
      heq | hchanges
    · rw [heq]
      exact ⟨middle, hmiddle, hsuffix⟩
    · exact ⟨_, hmiddle.change hchanges, hsuffix.trans (List.suffix_cons _ _)⟩

end Account

/-! ## §3 After a script -/

namespace Script.Session

open Account

/-- The states of a registry between the commands of a script are in its past. -/
theorem past_after {s : Session} {d : Dealings} (hs : (s.account d).Consistent) {r : Nat}
    {past : List (Registry Object)} (hpast : Past (s.holdings.registry r) past)
    (commands : List Command) :
    ∃ past', Past ((s.after commands).holdings.registry r) past' ∧
      s.holdings.registry r :: past <:+ (s.after commands).holdings.registry r :: past' ∧
      ∀ n, (s.after (commands.take n)).holdings.registry r
        ∈ (s.after commands).holdings.registry r :: past' := by
  induction commands generalizing s d past with
  | nil =>
    refine ⟨past, hpast, List.suffix_refl _, fun n => ?_⟩
    rw [List.take_nil]
    exact List.mem_cons_self
  | cons command rest ih =>
    have hrun := (command_run hs command).run
    -- The past of the command comes first, and what the rest adds is put in front of it.
    obtain ⟨middle, hmiddle, hfirst⟩ := Run.past hrun hs hpast
    obtain ⟨past', hpast', hrest, hstates⟩ := ih (hrun.consistent hs) hmiddle
    refine ⟨past', hpast', hfirst.trans hrest, fun n => ?_⟩
    cases n with
    | zero => exact (hfirst.trans hrest).subset List.mem_cons_self
    | succ n => exact hstates n

/-- Whatever a script does, the slot table of every registry is well kept.  Its past is the only one
that its journal allows, and the states between the commands are in it. -/
theorem wellKept_after (identities : List UInt64) (bridges : List Bridge)
    (commands : List Command) (r : Nat) :
    ∃ past, Past (((start identities bridges).after commands).holdings.registry r) past ∧
      (∀ other, Past (((start identities bridges).after commands).holdings.registry r) other →
        other = past) ∧
      (∀ n, ((start identities bridges).after (commands.take n)).holdings.registry r
        ∈ ((start identities bridges).after commands).holdings.registry r :: past) ∧
      (((start identities bridges).after commands).holdings.registry r).WellKept past := by
  have hstart : Past ((start identities bridges).holdings.registry r) [] := by
    obtain ⟨identity, hregistry⟩ := registry_start identities r
    exact hregistry ▸ Past.new identity
  obtain ⟨past, hpast, _, hstates⟩ :=
    past_after (start_consistent identities bridges) hstart commands
  exact ⟨past, hpast, fun other hother => hpast.unique hother, hstates, hpast.wellKept⟩

end Script.Session

end Ferry
