import Ferry.Holdings.Basic

/-!
# Letting go

Giving up the last share of a value ends it, and what it held is given up in turn: an owner gives up
its entry, the entry its object, a status that was stored gives up its payloads, and so on across
registries.  The cascade runs along a work list in depth-first order, so that an owner's cascade is
over before the next owner of the same status goes.

Main statement: every step of the cascade leaves less to do (`settle_weight_lt`), so the cascade
ends whatever is nested in what.
-/

namespace Ferry

/-- One unit of a count, about to be given up. -/
inductive Share where
  | owner (ref : OwnerRef)
  | object (object : Object)
  deriving DecidableEq

/-- The shares that a payload holds. -/
def Payload.shares (payload : Payload) : List Share :=
  payload.owner.toList.map Share.owner

/-- The shares that a status holds, in the order of its slots. -/
def Status.shares (status : Status) : List Share :=
  status.owners.map Share.owner

/-- The shares that an item holds. -/
def Item.shares : Item → List Share
  | .status held => held.shares
  | _ => []

/-! ## The measure of a cascade -/

/-- What a share may still set off: an owner may give up an object. -/
def Share.weight : Share → Nat
  | owner _ => 2
  | object _ => 1

/-- What a row of shares may still set off. -/
def Share.totalWeight (shares : List Share) : Nat :=
  sumOf Share.weight shares

/-- What an item's end may set off. -/
def Item.weight (item : Item) : Nat :=
  Share.totalWeight item.shares

@[simp] theorem Share.totalWeight_nil : Share.totalWeight [] = 0 := rfl

@[simp] theorem Share.totalWeight_cons (share : Share) (rest : List Share) :
    Share.totalWeight (share :: rest) = share.weight + Share.totalWeight rest := rfl

@[simp] theorem Share.totalWeight_append (first second : List Share) :
    Share.totalWeight (first ++ second) = Share.totalWeight first + Share.totalWeight second :=
  sumOf_append Share.weight first second

namespace Holdings

/-- What the ends of all items may set off. -/
def weight (h : Holdings) : Nat :=
  h.items.weight Item.weight

/-! ## The cascade -/

/-- Does the duty of an owner that went, and returns the shares this sets free.  An entry that is
gone already is left alone. -/
def discharge (h : Holdings) : Option Duty → Holdings × List Share
  | none => (h, [])
  | some (.tally counter) => ({ h with tallies := h.tallies.modify counter (· + 1) }, [])
  | some (.entry r handle) =>
    match (h.registry r).fetch handle with
    -- The entry was given up by its handle before.
    | .error _ => (h, [])
    -- The slot is free again before the object goes.
    | .ok (registry, object) => (h.setRegistry r registry, [.object object])

/-- The shares that go with an item that went. -/
def departing : Option Item → List Share
  | none => []
  | some item => item.shares

/-- Gives up one share and returns the shares this sets free. -/
def settle (h : Holdings) : Share → Holdings × List Share
  | .owner ref =>
    let released := h.owners.release ref
    discharge { h with owners := released.1 } released.2
  | .object (.item ref) =>
    let released := h.items.release ref
    ({ h with items := released.1 }, departing released.2)
  | .object (.exception ref) =>
    ({ h with exceptions := ExceptionGraph.drop h.exceptions ref }, [])

/-- What departs weighs as much as the shares that go with it. -/
theorem totalWeight_departing (gone : Option Item) :
    Share.totalWeight (departing gone) = (gone.map Item.weight).getD 0 := by
  cases gone <;> rfl

theorem discharge_weight_le (h : Holdings) (duty : Option Duty) :
    (h.discharge duty).1.weight + Share.totalWeight (h.discharge duty).2 ≤ h.weight + 1 := by
  unfold discharge
  split
  · simp
  · simp [weight]
  · split
    · simp
    · simp [weight, setRegistry, Share.weight]

/-- Giving up a share leaves less to do than there was. -/
theorem settle_weight_lt (h : Holdings) (share : Share) :
    (h.settle share).1.weight + Share.totalWeight (h.settle share).2 < h.weight + share.weight := by
  match share with
  | .owner ref =>
    have step := discharge_weight_le { h with owners := (h.owners.release ref).1 }
      (h.owners.release ref).2
    simp only [settle, Share.weight]
    simp only [weight] at step ⊢
    omega
  | .object (.item ref) =>
    have balance := Pool.weight_release Item.weight h.items ref
    have moved := totalWeight_departing (h.items.release ref).2
    simp only [settle, Share.weight, weight]
    omega
  | .object (.exception ref) => simp [settle, Share.weight, weight]

/-- Gives up the pending shares in order, each with all that it sets free before the next. -/
def releaseAll (h : Holdings) (pending : List Share) : Holdings :=
  match pending with
  | [] => h
  | share :: rest =>
    let settled := h.settle share
    settled.1.releaseAll (settled.2 ++ rest)
termination_by h.weight + Share.totalWeight pending
decreasing_by
  have less := settle_weight_lt h share
  simp only [Share.totalWeight_append, Share.totalWeight_cons]
  omega

@[simp] theorem releaseAll_nil (h : Holdings) : h.releaseAll [] = h := by
  rw [releaseAll]

theorem releaseAll_cons (h : Holdings) (share : Share) (rest : List Share) :
    h.releaseAll (share :: rest) = (h.settle share).1.releaseAll ((h.settle share).2 ++ rest) := by
  rw [releaseAll]

/-! ## What is dropped -/

/-- Gives up a share of an exception. -/
def dropException (h : Holdings) (e : ExceptionRef) : Holdings :=
  h.releaseAll [.object (.exception e)]

/-- Gives up a share of an object. -/
def dropObject (h : Holdings) (object : Object) : Holdings :=
  h.releaseAll [.object object]

/-- Gives up what a payload holds. -/
def dropPayload (h : Holdings) (payload : Payload) : Holdings :=
  h.releaseAll payload.shares

/-- Gives up what a status holds, slot by slot. -/
def dropStatus (h : Holdings) (status : Status) : Holdings :=
  h.releaseAll status.shares

end Holdings

end Ferry
