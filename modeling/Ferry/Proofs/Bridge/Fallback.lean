import Ferry.Proofs.Bridge.Dispatch

/-!
# Falling back

A bridge may report the fault of a handler or fall back on the plain exception of the status.  The
two ways are compared on the same bridge, for handlers of any conduct.  Where one reports no fault,
the other does the very same; where one reports a fault, the other goes on from the state in which
that one stops and makes the plain exception there.  So whoever falls back never fails.

The reason is that a handler is called only for a status with one slot.  What is left of the status
when the handler is done holds nothing, so nothing is given up between the fault and the exception.

Main statements: `Bridge.reconstructUnder_mends`, the two ways side by side, and
`Bridge.fallback_simulates`, what follows for raising and for passing on.

## Sections

1. Two ways of meeting faults.
2. Reconstructing.
3. Passing on.
4. The comparison.
-/

namespace Ferry.Bridge

open Scene

variable {σ : Type}

/-! ## §1 Two ways of meeting faults -/

/-- The same bridge, meeting faults in a given way. -/
def meeting (b : Bridge) (choice : Unresolved) : Bridge :=
  { b with config := { b.config with onUnresolved := choice } }

/-- The plain exception of a status that holds nothing is all that settling it comes to. -/
theorem settlePlain_of_empty (b : Bridge) (h : Holdings) (status : Status) :
    b.settlePlain h { status with slots := {} }
      = ((b.plainException h status).1, .ok (some (b.plainException h status).2)) := by
  have hdrop : ∀ h' : Holdings, h'.dropStatus { status with slots := {} } = h' :=
    Holdings.releaseAll_nil
  rw [settlePlain, hdrop]
  rfl

theorem content?_plainException (b : Bridge) (h : Holdings) (status : Status) :
    (b.plainException h status).1.exceptions.content? (b.plainException h status).2
      = some (.plain b.config.strip status.code status.message) := by
  have hinserted := Pool.content?_insert h.exceptions
    (Node.plain b.config.strip status.code status.message)
    (h.exceptions.insert (Node.plain b.config.strip status.code status.message)).2
  rwa [if_pos rfl] at hinserted

/-! ## §2 Reconstructing -/

/-- The second outcome is the first one with the plain exception of a status in place of a fault. -/
inductive Mends (b : Bridge) (status : Status) :
    Scene σ × Except Fault (Option ExceptionRef) → Scene σ × Except Fault (Option ExceptionRef) →
      Prop where
  | same (after : Scene σ) (found : Option ExceptionRef) :
      Mends b status (after, .ok found) (after, .ok found)
  | plain (after : Scene σ) (fault : Fault) :
      Mends b status (after, .error fault)
        (beside after.state ((b.plainException after.holdings status).1,
          .ok (some (b.plainException after.holdings status).2)))

theorem handleUnder_mends (b : Bridge) (conduct : Conduct σ) (scene : Scene σ) (handler : Handler)
    (payload : Payload) (status : Status) :
    Mends b status
      ((b.meeting .fail).handleUnder conduct scene handler payload { status with slots := {} })
      ((b.meeting .fallback).handleUnder conduct scene handler payload
        { status with slots := {} }) := by
  have hdrop : ∀ h : Holdings, h.dropStatus { status with slots := {} } = h :=
    Holdings.releaseAll_nil
  unfold handleUnder
  rcases conduct handler payload { status with slots := {} } scene with ⟨after, fault | e⟩
  · simp only [meeting, hdrop, settlePlain_of_empty]
    exact .plain after fault
  · exact .same _ _

/-- A bridge that falls back mends the outcome of the one that reports faults. -/
theorem reconstructUnder_mends (b : Bridge) (conduct : Conduct σ) (scene : Scene σ)
    (status : Status) :
    Mends b status ((b.meeting .fail).reconstructUnder conduct scene status)
      ((b.meeting .fallback).reconstructUnder conduct scene status) := by
  cases hfails : status.isOk with
  | true =>
    simp only [reconstructUnder, hfails, if_true]
    exact .same _ _
  | false =>
    by_cases hclass : ∃ key, b.classify status = .handler key
    · obtain ⟨key, hkey⟩ := hclass
      obtain ⟨hkeys, hbound⟩ := classify_eq_handler_iff.mp hkey
      obtain ⟨payload, hslots⟩ := Status.exists_slots_of_keys hkeys
      obtain ⟨handler, hget⟩ := Option.isSome_iff_exists.mp hbound
      rw [reconstructUnder_of_slots (b := b.meeting .fail) hfails hslots hget,
        reconstructUnder_of_slots (b := b.meeting .fallback) hfails hslots hget]
      exact handleUnder_mends b conduct scene handler payload status
    · have hplain : ∀ key, b.classify status ≠ .handler key := not_exists.mp hclass
      rw [reconstructUnder_of_plain (b := b.meeting .fail) hfails hplain,
        reconstructUnder_of_plain (b := b.meeting .fallback) hfails hplain]
      exact .same _ _

section Mends

variable {b : Bridge} {status : Status}
  {failing fallback : Scene σ × Except Fault (Option ExceptionRef)}

theorem Mends.exists_ok (hmends : Mends b status failing fallback) :
    ∃ found, fallback.2 = .ok found := by
  cases hmends with
  | same after found => exact ⟨found, rfl⟩
  | plain after fault => exact ⟨_, rfl⟩

theorem Mends.eq_of_ok (hmends : Mends b status failing fallback) {found : Option ExceptionRef}
    (hok : failing.2 = .ok found) : fallback = failing := by
  cases hmends with
  | same after found => rfl
  | plain after fault => cases hok

end Mends

/-! ## §3 Passing on -/

/-- Whoever falls back passes every status on. -/
theorem hopUnder_ok (b : Bridge) (conduct : Conduct σ) (scene : Scene σ) (inner : Status)
    (step : Hop) :
    ∃ after outer, (b.meeting .fallback).hopUnder conduct scene inner step
      = (after, .ok outer) := by
  obtain ⟨found, hok⟩ := (reconstructUnder_mends b conduct scene inner).exists_ok
  unfold hopUnder
  split
  · exact ⟨_, _, rfl⟩
  · generalize (b.meeting .fallback).reconstructUnder conduct scene inner = rebuilt at hok
    obtain ⟨after, result⟩ := rebuilt
    cases hok
    exact ⟨_, _, rfl⟩

theorem hopsUnder_ok (b : Bridge) (conduct : Conduct σ) (scene : Scene σ) (inner : Status)
    (steps : List Hop) :
    ∃ after outer, (b.meeting .fallback).hopsUnder conduct scene inner steps
      = (after, .ok outer) := by
  induction steps generalizing scene inner with
  | nil => exact ⟨scene, inner, rfl⟩
  | cons step rest ih =>
    obtain ⟨after, outer, hhop⟩ := hopUnder_ok b conduct scene inner step
    rw [hopsUnder, hhop]
    exact ih after outer

/-- A hop that does not fail is the same for both. -/
theorem hopUnder_of_ok {b : Bridge} {conduct : Conduct σ} {scene after : Scene σ}
    {inner outer : Status} {step : Hop}
    (hok : (b.meeting .fail).hopUnder conduct scene inner step = (after, .ok outer)) :
    (b.meeting .fallback).hopUnder conduct scene inner step = (after, .ok outer) := by
  have hmends := reconstructUnder_mends b conduct scene inner
  unfold hopUnder at hok ⊢
  split at hok
  · next hisOk => rwa [if_pos hisOk]
  · next hfails =>
    rw [if_neg hfails]
    split at hok
    · cases hok
    · next hfailing =>
      rw [hmends.eq_of_ok (congrArg Prod.snd hfailing), hfailing]
      exact hok

theorem hopsUnder_of_ok {b : Bridge} {conduct : Conduct σ} {scene after : Scene σ}
    {inner outer : Status} {steps : List Hop}
    (hok : (b.meeting .fail).hopsUnder conduct scene inner steps = (after, .ok outer)) :
    (b.meeting .fallback).hopsUnder conduct scene inner steps = (after, .ok outer) := by
  induction steps generalizing scene inner with
  | nil => exact hok
  | cons step rest ih =>
    unfold hopsUnder at hok ⊢
    split at hok
    · cases hok
    · next middle passed hhop =>
      rw [hopUnder_of_ok hhop]
      exact ih hok

/-! ## §4 The comparison -/

/-- What falling back does in comparison with reporting faults.  For each way of meeting faults
there is an outcome of reconstructing a status, of raising it, and of passing it on. -/
structure FallsBack (b : Bridge) (status : Status)
    (reconstruct : Unresolved → Holdings × Except Fault (Option ExceptionRef))
    (raise : Unresolved → Holdings × Raised)
    (hops : Unresolved → List Hop → Holdings × Except Fault Status) : Prop where
  /-- Without a fault there is no difference. -/
  of_ok : ∀ found, (reconstruct .fail).2 = .ok found → reconstruct .fallback = reconstruct .fail
  /-- In place of a fault the plain exception is made, and nothing else is done. -/
  of_fault : ∀ fault, (reconstruct .fail).2 = .error fault →
    ∃ after e, b.plainException (reconstruct .fail).1 status = (after, e) ∧
      reconstruct .fallback = (after, .ok (some e)) ∧
      after.exceptions.content? e
        = some (.plain b.config.strip status.code status.message)
  registries_eq : (reconstruct .fallback).1.registries = (reconstruct .fail).1.registries
  reconstruct_ok : ∃ found, (reconstruct .fallback).2 = .ok found
  raise_ne_fault : ∀ fault, (raise .fallback).2 ≠ .fault fault
  hops_ok : ∀ steps, ∃ outer, (hops .fallback steps).2 = .ok outer
  /-- What is passed on without a fault is passed on in the same way. -/
  hops_of_ok : ∀ steps outer, (hops .fail steps).2 = .ok outer →
    hops .fallback steps = hops .fail steps

theorem fallsBack_under (b : Bridge) (conduct : Conduct σ) (scene : Scene σ) (status : Status) :
    FallsBack b status
      (fun choice => bare ((b.meeting choice).reconstructUnder conduct scene status))
      (fun choice => bare ((b.meeting choice).raiseUnder conduct scene status))
      (fun choice steps => bare ((b.meeting choice).hopsUnder conduct scene status steps)) := by
  have hmends := reconstructUnder_mends b conduct scene status
  obtain ⟨found, hfound⟩ := hmends.exists_ok
  refine
    { of_ok := fun _ hok => congrArg bare (hmends.eq_of_ok hok)
      of_fault := fun fault hfault => ?_
      registries_eq := ?_
      reconstruct_ok := ⟨found, hfound⟩
      raise_ne_fault := fun fault => ?_
      hops_ok := fun steps => ?_
      hops_of_ok := fun steps outer hok => ?_ }
  · generalize (b.meeting .fail).reconstructUnder conduct scene status = failing at *
    generalize (b.meeting .fallback).reconstructUnder conduct scene status = fallback at *
    cases hmends with
    | same after found => cases hfault
    | plain after fault => exact ⟨_, _, rfl, rfl, content?_plainException b _ status⟩
  · generalize (b.meeting .fail).reconstructUnder conduct scene status = failing at *
    generalize (b.meeting .fallback).reconstructUnder conduct scene status = fallback at *
    cases hmends <;> rfl
  · show raisedAs ((b.meeting .fallback).reconstructUnder conduct scene status).2 ≠ _
    rw [hfound]
    cases found <;> simp [raisedAs]
  · obtain ⟨after, outer, hhops⟩ := hopsUnder_ok b conduct scene status steps
    exact ⟨outer, congrArg Prod.snd hhops⟩
  · have hhops : (b.meeting .fail).hopsUnder conduct scene status steps
        = (((b.meeting .fail).hopsUnder conduct scene status steps).1, .ok outer) :=
      Prod.ext rfl hok
    exact congrArg bare ((hopsUnder_of_ok hhops).trans hhops.symm)

/-- Falling back does what reporting faults does, up to the first fault, and goes on from there with
the plain exception of the status; so it never fails.  This holds in every state, for every status
and every table: for the handlers as they are, and for any conduct, whose own state is also the same
in both ways. -/
theorem fallback_simulates (b : Bridge) (h : Holdings) (status : Status) :
    FallsBack b status (fun choice => (b.meeting choice).reconstruct h status)
      (fun choice => (b.meeting choice).raise h status)
      (fun choice steps => (b.meeting choice).hops h status steps) ∧
    ∀ (σ : Type) (conduct : Conduct σ) (state : σ),
      FallsBack b status
        (fun choice => bare ((b.meeting choice).reconstructUnder conduct ⟨h, state⟩ status))
        (fun choice => bare ((b.meeting choice).raiseUnder conduct ⟨h, state⟩ status))
        (fun choice steps =>
          bare ((b.meeting choice).hopsUnder conduct ⟨h, state⟩ status steps)) ∧
      ((b.meeting .fallback).reconstructUnder conduct ⟨h, state⟩ status).1.state
        = ((b.meeting .fail).reconstructUnder conduct ⟨h, state⟩ status).1.state := by
  refine ⟨?_, fun σ conduct state => ⟨fallsBack_under b conduct ⟨h, state⟩ status, ?_⟩⟩
  · -- The handlers as they are conduct themselves as every bridge has it.
    have hown := fallsBack_under b (b.noting fun _ _ _ => id) ⟨h, ()⟩ status
    have hreconstruct := fun choice =>
      bare_reconstructUnder (b.meeting choice) (fun _ _ _ => id) ⟨h, ()⟩ status
    have hraise := fun choice =>
      bare_raiseUnder (b.meeting choice) (fun _ _ _ => id) ⟨h, ()⟩ status
    have hhops := fun choice =>
      bare_hopsUnder (b.meeting choice) (fun _ _ _ => id) ⟨h, ()⟩ status
    have hconduct : ∀ choice, (b.meeting choice).noting (fun _ _ _ => id)
        = b.noting (fun _ _ _ => (id : Unit → Unit)) := fun _ => rfl
    simp only [hconduct] at hreconstruct hraise hhops
    simpa only [hreconstruct, hraise, hhops] using hown
  · have hmends := reconstructUnder_mends b conduct ⟨h, state⟩ status
    generalize (b.meeting .fail).reconstructUnder conduct ⟨h, state⟩ status = failing at *
    generalize (b.meeting .fallback).reconstructUnder conduct ⟨h, state⟩ status = fallback at *
    cases hmends <;> rfl

end Ferry.Bridge
