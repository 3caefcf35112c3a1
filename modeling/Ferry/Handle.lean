import Ferry.Text.Hex

/-!
# Handles

A handle names one entry of one registry: the registry's identity, the number of the entry's slot,
and the nonce that the slot carried when the entry was made.  A slot is used again with another
nonce, so a handle never names a later entry of its slot.
-/

namespace Ferry

/-- Names one entry of one registry. -/
structure Handle where
  /-- The identity of the registry that made the handle. -/
  registry : UInt64
  /-- The slot of the entry. -/
  slot : UInt64
  /-- The generation of the slot when the entry was made. -/
  nonce : UInt64
  deriving DecidableEq, Inhabited

namespace Handle

/-- What the identities of all registries of a process have in common: the high half of a word that
is drawn once. -/
def processTag (drawn : UInt64) : UInt64 :=
  drawn &&& 0xffffffff00000000

/-- The identity of the registry that a process makes at a count.  The low half is the count, of
which it holds the last 32 bits. -/
def registryIdentity (tag : UInt64) (count : Nat) : UInt64 :=
  tag ||| (count.toUInt64 &&& 0xffffffff)

/-- The identities of the registries that a process makes, in order.  It counts them from one. -/
def identities (drawn : UInt64) (number : Nat) : List UInt64 :=
  (List.range' 1 number).map (registryIdentity (processTag drawn))

/-- The slot of a handle may be compared by its number. -/
theorem eq_of_toNat_slot {first second : Handle} (hregistry : first.registry = second.registry)
    (hslot : first.slot.toNat = second.slot.toNat) (hnonce : first.nonce = second.nonce) :
    first = second := by
  cases first
  cases second
  simp only [mk.injEq]
  exact ⟨hregistry, UInt64.toNat_inj.mp hslot, hnonce⟩

/-- A registry's identity as text: sixteen digits behind `0x`. -/
def identityText (identity : UInt64) : String :=
  String.ofList ('0' :: 'x' :: Text.Hex.fixed 16 identity.toNat)

/-- A slot or nonce as text: the fewest digits. -/
def shortText (word : UInt64) : String :=
  String.ofList (Text.Hex.shortest word.toNat)

/-- A nonce as text behind `0x`. -/
def nonceText (nonce : UInt64) : String :=
  "0x" ++ shortText nonce

/-- The word that digits of either case stand for. -/
def readWord? (digits : String) : Option UInt64 :=
  (Text.Hex.value? digits.toList).map Nat.toUInt64

end Handle

end Ferry
