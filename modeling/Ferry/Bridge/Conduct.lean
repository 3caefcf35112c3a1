import Ferry.Bridge.Hop

/-!
# The conduct of handlers

What a bridge does around a handler does not depend on how the handler works.  A conduct says what
calling a handler comes to: it may do anything with the holdings, and it may keep a state of its
own.  The operations of a bridge are given here under any conduct.  Bridges call their handlers
through `Handler.run`; a conduct of this kind may take a note of every call.

Main statements: under the handlers' own conduct, whatever notes are taken, the operations are those
of the bridge (`bare_reconstructUnder`, `bare_raiseUnder`, `bare_hopsUnder`).

## Sections

1. Conducts.
2. The operations of a bridge under a conduct.
3. The handlers' own conduct.
-/

namespace Ferry

variable {σ α : Type}

/-! ## §1 Conducts -/

/-- What the handlers act on: the holdings, and what the handlers keep for themselves. -/
structure Scene (σ : Type) where
  holdings : Holdings
  state : σ

/-- What calling a handler with a payload and the rest of its status comes to. -/
abbrev Conduct (σ : Type) :=
  Handler → Payload → Status → Scene σ → Scene σ × Except Fault ExceptionRef

namespace Scene

/-- A result of the holdings, beside a state that is left alone. -/
def beside (state : σ) (result : Holdings × α) : Scene σ × α :=
  (⟨result.1, state⟩, result.2)

/-- A result without what the handlers keep. -/
def bare (result : Scene σ × α) : Holdings × α :=
  (result.1.holdings, result.2)

@[simp] theorem bare_beside (state : σ) (result : Holdings × α) :
    bare (beside state result) = result := rfl

end Scene

namespace Bridge

open Scene

/-! ## §2 The operations of a bridge under a conduct -/

/-- Calls a handler on a payload, with the rest of its status.  Payload and status are used up. -/
def handleUnder (b : Bridge) (conduct : Conduct σ) (scene : Scene σ) (handler : Handler)
    (payload : Payload) (rest : Status) : Scene σ × Except Fault (Option ExceptionRef) :=
  match conduct handler payload rest scene with
  | (after, .ok e) => beside after.state (after.holdings.dropStatus rest, .ok (some e))
  | (after, .error fault) =>
    match b.config.onUnresolved with
    | .fail => beside after.state (after.holdings.dropStatus rest, .error fault)
    | .fallback => beside after.state (b.settlePlain after.holdings rest)

/-- Turns a failed status into the exception it stands for. -/
def reconstructUnder (b : Bridge) (conduct : Conduct σ) (scene : Scene σ) (status : Status) :
    Scene σ × Except Fault (Option ExceptionRef) :=
  if status.isOk then beside scene.state (scene.holdings.dropStatus status, .ok none)
  else
    match b.classify status with
    | .handler key =>
      match b.table.get? key, status.take? key with
      | some handler, some (payload, rest) => b.handleUnder conduct scene handler payload rest
      | _, _ => beside scene.state (b.settlePlain scene.holdings status)
    | .plain | .ambiguous => beside scene.state (b.settlePlain scene.holdings status)

/-- What a status is raised as, once it is reconstructed. -/
def raisedAs : Except Fault (Option ExceptionRef) → Raised
  | .ok none => .nothing
  | .ok (some e) => .exception e
  | .error fault => .fault fault

/-- Raises a status, which is used up. -/
def raiseUnder (b : Bridge) (conduct : Conduct σ) (scene : Scene σ) (status : Status) :
    Scene σ × Raised :=
  let rebuilt := b.reconstructUnder conduct scene status
  (rebuilt.1, raisedAs rebuilt.2)

/-- Passes on the exception of a failed status, if there is one. -/
def passOn (b : Bridge) (h : Holdings) (cause : Option ExceptionRef) : Hop → Holdings × Status
  | .chain kind message => b.captureFrom h kind message cause
  | .wrap code message => b.carryCause h code message cause

/-- Passes a failed status on.  Success is handed back unchanged. -/
def hopUnder (b : Bridge) (conduct : Conduct σ) (scene : Scene σ) (inner : Status) (step : Hop) :
    Scene σ × Except Fault Status :=
  if inner.isOk then (scene, .ok inner)
  else
    match b.reconstructUnder conduct scene inner with
    | (after, .error fault) => (after, .error fault)
    | (after, .ok cause) =>
      let passed := b.passOn after.holdings cause step
      beside after.state (passed.1, .ok passed.2)

/-- Passes a status on several times, up to the first fault. -/
def hopsUnder (b : Bridge) (conduct : Conduct σ) (scene : Scene σ) (inner : Status) :
    List Hop → Scene σ × Except Fault Status
  | [] => (scene, .ok inner)
  | step :: rest =>
    match b.hopUnder conduct scene inner step with
    | (after, .error fault) => (after, .error fault)
    | (after, .ok outer) => b.hopsUnder conduct after outer rest

/-! ## §3 The handlers' own conduct -/

/-- The handlers of a bridge run as they are, and a note is taken of every call. -/
def noting (b : Bridge) (note : Handler → Payload → Status → σ → σ) : Conduct σ :=
  fun handler payload rest scene =>
    beside (note handler payload rest scene.state)
      (handler.run scene.holdings b.registry b.config.strip payload rest)

variable (b : Bridge) (note : Handler → Payload → Status → σ → σ)

theorem bare_handleUnder (scene : Scene σ) (handler : Handler) (payload : Payload)
    (rest : Status) :
    bare (b.handleUnder (b.noting note) scene handler payload rest)
      = b.handle scene.holdings handler payload rest := by
  simp only [handleUnder, noting, handle, beside]
  cases handler.run scene.holdings b.registry b.config.strip payload rest with
  | mk after result =>
    cases result with
    | ok e => rfl
    | error fault => cases b.config.onUnresolved <;> rfl

theorem bare_reconstructUnder (scene : Scene σ) (status : Status) :
    bare (b.reconstructUnder (b.noting note) scene status)
      = b.reconstruct scene.holdings status := by
  unfold reconstructUnder reconstruct
  split
  · rfl
  · cases b.classify status with
    | plain => rfl
    | ambiguous => rfl
    | handler key =>
      dsimp only
      cases b.table.get? key with
      | none => rfl
      | some handler =>
        cases status.take? key with
        | none => rfl
        | some taken => exact bare_handleUnder b note scene handler taken.1 taken.2

theorem bare_raiseUnder (scene : Scene σ) (status : Status) :
    bare (b.raiseUnder (b.noting note) scene status) = b.raise scene.holdings status := by
  have hreconstruct := bare_reconstructUnder b note scene status
  unfold raise
  rw [← hreconstruct]
  unfold raiseUnder
  rcases b.reconstructUnder (b.noting note) scene status with ⟨after, fault | _ | e⟩ <;> rfl

theorem bare_hopUnder (scene : Scene σ) (inner : Status) (step : Hop) :
    bare (b.hopUnder (b.noting note) scene inner step) = b.hop scene.holdings inner step := by
  have hreconstruct := bare_reconstructUnder b note scene inner
  unfold hop
  rw [← hreconstruct]
  unfold hopUnder
  split
  · rfl
  · rcases b.reconstructUnder (b.noting note) scene inner with ⟨after, fault | cause⟩
    · rfl
    · cases step <;> rfl

theorem bare_hopsUnder (scene : Scene σ) (inner : Status) (steps : List Hop) :
    bare (b.hopsUnder (b.noting note) scene inner steps)
      = b.hops scene.holdings inner steps := by
  induction steps generalizing scene inner with
  | nil => rfl
  | cons step rest ih =>
    have hhop := bare_hopUnder b note scene inner step
    unfold hops
    rw [← hhop]
    unfold hopsUnder
    rcases b.hopUnder (b.noting note) scene inner step with ⟨after, fault | outer⟩
    · rfl
    · exact ih after outer

end Bridge

end Ferry
