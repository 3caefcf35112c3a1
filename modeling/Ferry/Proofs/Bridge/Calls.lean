import Ferry.Proofs.Exception.Builders
import Ferry.Proofs.Ownership.Bridges
import Ferry.Proofs.Ownership.Exact

/-!
# Callers who hold exceptions

A caller holds references to exceptions and statuses and makes calls, in any order and with any
arguments that are in hand: an exception may be linked to itself or to one that it leads to.  Each
call takes shares from the hand and puts others into it, so every row of calls is a quiet run.

Hence links never run in a circle, whatever is called, and at any point of the row the next builder
changes nothing that can be seen through another reference.

Main statement: `calls_after`, what holds at any point of a row of calls that begins after a script.

## Sections

1. Calls.
2. Calls are quiet.
3. After a script.
-/

namespace Ferry

open Account ExceptionGraph Holdings

/-! ## §1 Calls -/

/-- A call of a caller who holds exceptions and statuses. -/
inductive Call where
  | new (kind : Kind) (message : String)
  /-- Adds a reference to an exception in hand. -/
  | clone (e : ExceptionRef)
  | drop (e : ExceptionRef)
  | extend (e : ExceptionRef) (builder : Builder)
  | build (outline : Outline)
  /-- The caller keeps the exception. -/
  | capture (b : Bridge) (e : ExceptionRef)
  | reconstruct (b : Bridge) (status : Status)
  | hop (b : Bridge) (status : Status) (step : Bridge.Hop)
  | discard (status : Status)

namespace Call

/-- The shares that a call takes from the hand. -/
def given : Call → Multiset Share
  | new _ _ | build _ => 0
  | clone e | drop e | capture _ e => {Share.exception e}
  | extend e builder => {Share.exception e} + (builder.links.map Share.exception : List _)
  | reconstruct _ status | hop _ status _ | discard status => (status.shares : List _)

/-- What a call leaves, and the shares that it puts into the hand. -/
def run (h : Holdings) : Call → Holdings × Multiset Share
  | new kind message =>
    let made := h.newException kind message
    (made.1, {Share.exception made.2})
  | clone e => (h.retainException e, {Share.exception e} + {Share.exception e})
  | drop e => (h.dropException e, 0)
  | extend e builder =>
    let built := builder.apply h.exceptions e
    (h.withExceptions built.1, {Share.exception built.2})
  | build outline =>
    let built := outline.build h.exceptions
    (h.withExceptions built.1, (built.2.toList.map Share.exception : List _))
  | capture b e =>
    let captured := b.capture h e
    (captured.1, (captured.2.shares : Multiset Share) + {Share.exception e})
  | reconstruct b status =>
    let raised := b.reconstruct h status
    (raised.1, Bridge.foundRaised raised.2)
  | hop b status step =>
    let passed := b.hop h status step
    (passed.1, Bridge.foundStatus passed.2)
  | discard status => (h.dropStatus status, 0)

/-- A bridge that stores has a registry to store in. -/
def Fits (h : Holdings) : Call → Prop
  | capture b _ | hop b _ _ => b.registry < h.registries.size
  | _ => True

end Call

/-- From some holdings and shares in hand, a row of calls leads to others. -/
inductive Calls (first : Holdings) (begun : Multiset Share) : Holdings → Multiset Share → Prop where
  | start : Calls first begun first begun
  | call {h : Holdings} {rest : Multiset Share} (call : Call)
      (hcalls : Calls first begun h (call.given + rest)) (hfits : call.Fits h) :
      Calls first begun (call.run h).1 ((call.run h).2 + rest)

/-! ## §2 Calls are quiet -/

variable {h first : Holdings} {hand begun rest : Multiset Share} {d : Dealings}

/-- A call trades what it takes for what it puts into the hand. -/
theorem Call.transfer (call : Call) (hfits : call.Fits h) :
    Transfer h call.given (call.run h).1 (call.run h).2 := by
  cases call with
  | new kind message => exact Bridge.newException_transfer h kind message
  | clone e =>
    exact Transfer.share_of_mem (s := .exception e) (Multiset.mem_singleton_self _)
  | drop e => exact Holdings.dropException_transfer h e
  | extend e builder => exact builder.apply_transfer h h.exceptions e
  | build outline => exact Outline.build_transfer h h.exceptions outline
  | capture b e =>
    exact Bridge.capture_transfer b h hfits (Multiset.mem_singleton_self (Share.exception e))
  | reconstruct b status => exact Bridge.reconstruct_transfer b h status
  | hop b status step => exact Bridge.hop_transfer b h hfits status step
  | discard status => exact Holdings.dropStatus_transfer h status

theorem Calls.quiet (hcalls : Calls first begun h hand) (ha : Consistent ⟨first, begun, d⟩) :
    QuietRun ⟨first, begun, d⟩ ⟨h, hand, d⟩ := by
  induction hcalls with
  | start => exact QuietRun.refl _
  | call call _ hfits ih => exact ih.trans (call.transfer hfits _ d (ih.consistent ha))

/-- Whatever was called, exceptions make chains, and others do not see what a builder does. -/
structure Sound (h : Holdings) (hand : Multiset Share) : Prop where
  /-- No exception leads to itself. -/
  acyclic : ∀ e, ¬Relation.TransGen h.exceptions.Links e e
  /-- The chain of an exception is what tracing its sources comes to. -/
  traced : ∀ e node, h.exceptions.content? e = some node → h.exceptions.Traced e
  /-- A builder that takes its shares from the hand spares all other references. -/
  spares : ∀ (builder : Builder) (e : ExceptionRef) (rest : Multiset Share),
    hand = {Share.exception e} + (builder.links.map Share.exception : List _) + rest →
    builder.Spares h e rest (h.withExceptions (builder.apply h.exceptions e).1)
      (builder.apply h.exceptions e).2

theorem sound_of_consistent (ha : Consistent ⟨h, hand, d⟩) (hfounded : Founded h.exceptions) :
    Sound h hand where
  acyclic := hfounded.acyclic
  traced _ _ hnode := hfounded.traced ha.closed hnode
  spares builder _ _ hhand := builder.spares (hhand ▸ ha)

namespace Script.Session

/-! ## §3 After a script -/

/-- After a script, a caller who takes over what the variables hold may make any calls: at every
point, links run in no circle, the chain of an exception is the row of its sources, and what the next
builder does is seen through its result only. -/
theorem calls_after (identities : List UInt64) (bridges : List Bridge) (commands : List Command)
    {h : Holdings} {hand : Multiset Share}
    (calls : Calls ((start identities bridges).after commands).holdings
      ((start identities bridges).after commands).shares h hand) : Sound h hand := by
  have hstart := start_consistent identities bridges
  have hscript := after_careful hstart commands
  have hs := hscript.consistent hstart
  have hrun := calls.quiet hs
  exact sound_of_consistent (hrun.consistent hs)
    (hrun.careful.founded hs (hscript.founded hstart founded_empty))

/-- An exception is made and captured. -/
def handing : List Command :=
  [.exception (.new "e" .value "a"), .bridge (.capture 0 "e" "s")]

/-- What this leads to, with another reference to the exception. -/
def handed : Holdings :=
  ((start [7] [.new 0 {}]).after handing).holdings.retainException ⟨0⟩

/-- The exception is linked to itself.  The result is a copy: the exception that the entry names is
as it was, and there is no circle. -/
theorem calls_after_handing :
    Calls ((start [7] [.new 0 {}]).after handing).holdings
        ((start [7] [.new 0 {}]).after handing).shares handed
        ({Share.exception ⟨0⟩} + {Share.exception ⟨0⟩} + {Share.owner ⟨0⟩}) ∧
      (handed.registry 0).borrow ⟨7, 0, 1⟩ = .ok (.exception ⟨0⟩) ∧
      handed.exceptions.cells.size ≤ ((Builder.cause ⟨0⟩).apply handed.exceptions ⟨0⟩).2.index ∧
      ((Builder.cause ⟨0⟩).apply handed.exceptions ⟨0⟩).1.content?
          ((Builder.cause ⟨0⟩).apply handed.exceptions ⟨0⟩).2
        = some { kind := .value, message := "a", cause := some ⟨0⟩ } ∧
      handed.exceptions.Preserved ((Builder.cause ⟨0⟩).apply handed.exceptions ⟨0⟩).1 ⟨0⟩ ∧
      ∀ e, ¬Relation.TransGen handed.exceptions.Links e e := by
  have hshares : ((start [7] [.new 0 {}]).after handing).shares
      = {Share.exception ⟨0⟩} + {Share.owner ⟨0⟩} := by decide +kernel
  have hstart : Calls ((start [7] [.new 0 {}]).after handing).holdings
      ((start [7] [.new 0 {}]).after handing).shares
      ((start [7] [.new 0 {}]).after handing).holdings
      ((Call.clone ⟨0⟩).given + {Share.owner ⟨0⟩}) := by
    rw [hshares]
    exact Calls.start
  have hcalls := Calls.call (.clone ⟨0⟩) hstart trivial
  have hborrow : (handed.registry 0).borrow ⟨7, 0, 1⟩ = .ok (.exception ⟨0⟩) := by
    decide +kernel
  have hshared : 1 < handed.exceptions.holders ⟨0⟩ := by decide +kernel
  have hnode : handed.exceptions.content? ⟨0⟩ = some { kind := .value, message := "a" } := by
    decide +kernel
  have hsound : Sound handed
      ({Share.exception ⟨0⟩} + {Share.exception ⟨0⟩} + {Share.owner ⟨0⟩}) :=
    calls_after [7] [.new 0 {}] handing hcalls
  have hspares := hsound.spares (.cause ⟨0⟩) ⟨0⟩ {Share.owner ⟨0⟩} rfl
  obtain ⟨node, hbefore, hresult⟩ := hspares.result
  rw [hnode] at hbefore
  cases hbefore
  exact ⟨hcalls, hborrow, hspares.fresh hshared, hresult, (hspares.entries 0 _ _ hborrow).2,
    hsound.acyclic⟩

end Script.Session

end Ferry
