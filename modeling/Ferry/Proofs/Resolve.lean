import Ferry.Holdings.Token
import Ferry.Proofs.Registry.Table

/-!
# When a payload resolves

A payload resolves to an entry if its bytes are a token of the entry and its owner is the one that
the token was made for.  It is then *honoured*; otherwise it is refused for the first of the reasons
that apply: the form of the bytes, the identity of the registry, the entry, the owner.

Main statements: `decode_eq_ok_iff` and `resolve_eq_ok_iff`; `honours_iff_resolve` and
`resolve_eq_error_iff`.

## Sections

1. Decoding and resolving.
2. Honoured and refused payloads.
-/

namespace Ferry.Holdings

/-! ## §1 Decoding and resolving -/

/-- What bytes decode to, once they are read as a handle. -/
theorem decode_of_parse (h : Holdings) (r : Nat) {bytes : List UInt8} {handle : Handle}
    (hparse : Token.parse bytes = .ok handle) :
    h.decode r bytes = ((h.registry r).borrow handle).map fun _ => handle := by
  simp only [decode, hparse, validate, Registry.validate]
  cases (h.registry r).borrow handle <;> rfl

theorem decode_of_parse_error (h : Holdings) (r : Nat) {bytes : List UInt8} {fault : Fault}
    (hparse : Token.parse bytes = .error fault) : h.decode r bytes = .error fault := by
  unfold decode
  rw [hparse]

/-- Bytes decode to a handle exactly if they are a token of it and its entry is live. -/
theorem decode_eq_ok_iff (h : Holdings) (r : Nat) (bytes : List UInt8) (handle : Handle) :
    h.decode r bytes = .ok handle ↔
      Token.parse bytes = .ok handle ∧ ∃ object, (h.registry r).borrow handle = .ok object := by
  cases hparse : Token.parse bytes with
  | error fault => simp [decode_of_parse_error h r hparse]
  | ok parsed =>
    rw [decode_of_parse h r hparse]
    cases hborrow : (h.registry r).borrow parsed with
    -- A handle whose entry is not live is not decoded.
    | error fault =>
      simp only [Except.map, reduceCtorEq, false_iff]
      rintro ⟨heq, object, hlive⟩
      cases heq
      rw [hborrow] at hlive
      cases hlive
    | ok object =>
      simp only [Except.map, Except.ok.injEq]
      constructor
      · rintro rfl
        exact ⟨rfl, object, hborrow⟩
      · exact fun ⟨heq, _⟩ => heq

/-- A payload resolves exactly if its bytes decode and its owner was made for the same entry. -/
theorem resolve_eq_ok_iff (h : Holdings) (r : Nat) (payload : Payload) (handle : Handle)
    (owner : OwnerRef) :
    h.resolve r payload = .ok (handle, owner) ↔
      h.decode r payload.bytes = .ok handle ∧ payload.owner = some owner ∧
        h.entryOf? owner = some handle := by
  unfold resolve
  cases hdecode : h.decode r payload.bytes with
  | error fault => simp
  | ok decoded =>
    simp only [Except.ok.injEq]
    cases howner : payload.owner with
    | none => simp
    | some found =>
      simp only [Option.some.injEq]
      by_cases hentry : h.entryOf? found = some decoded
      · rw [if_pos hentry]
        simp only [Except.ok.injEq, Prod.mk.injEq]
        constructor
        · rintro ⟨rfl, rfl⟩
          exact ⟨rfl, rfl, hentry⟩
        · exact fun ⟨hhandle, hfound, _⟩ => ⟨hhandle, hfound⟩
      -- The owner was made for another entry, or for none.
      · rw [if_neg hentry]
        simp only [reduceCtorEq, false_iff]
        rintro ⟨rfl, rfl, hsame⟩
        exact hentry hsame

/-! ## §2 Honoured and refused payloads -/

/-- A registry honours a payload for an object: the bytes are a token of one of its live entries,
the payload's own owner was made for this entry, and the entry holds the object. -/
def Honours (h : Holdings) (r : Nat) (payload : Payload) (object : Object) : Prop :=
  ∃ handle o, Token.parse payload.bytes = .ok handle ∧
    handle.registry = (h.registry r).identity ∧ (h.registry r).borrow handle = .ok object ∧
    payload.owner = some o ∧ h.entryOf? o = some handle

/-- A registry refuses a payload.  Each reason presupposes that those before it do not apply. -/
inductive Refuses (h : Holdings) (r : Nat) (payload : Payload) : Fault → Prop where
  /-- The bytes are no token. -/
  | form {fault : Fault} (hparse : Token.parse payload.bytes = .error fault) :
      Refuses h r payload fault
  /-- The handle belongs to another registry. -/
  | foreign {handle : Handle} (hparse : Token.parse payload.bytes = .ok handle)
      (hother : handle.registry ≠ (h.registry r).identity) :
      Refuses h r payload (.foreignRegistry (h.registry r).identity handle.registry)
  /-- The entry is not live. -/
  | stale {handle : Handle} (hparse : Token.parse payload.bytes = .ok handle)
      (hown : handle.registry = (h.registry r).identity)
      (hdead : ∀ object, (h.registry r).borrow handle ≠ .ok object) :
      Refuses h r payload (.stale handle.slot handle.nonce)
  /-- The payload has no owner, or one that was not made for the entry. -/
  | detached {handle : Handle} {object : Object}
      (hparse : Token.parse payload.bytes = .ok handle)
      (hborrow : (h.registry r).borrow handle = .ok object)
      (howner : ∀ o, payload.owner = some o → h.entryOf? o ≠ some handle) :
      Refuses h r payload .detached

theorem resolve_of_decode_error {h : Holdings} {r : Nat} {payload : Payload} {fault : Fault}
    (hdecode : h.decode r payload.bytes = .error fault) : h.resolve r payload = .error fault := by
  unfold resolve
  rw [hdecode]

/-- A payload that is not owned as its bytes say is detached. -/
theorem resolve_of_decode {h : Holdings} {r : Nat} {payload : Payload} {handle : Handle}
    (hdecode : h.decode r payload.bytes = .ok handle)
    (howner : ∀ o, payload.owner = some o → h.entryOf? o ≠ some handle) :
    h.resolve r payload = .error .detached := by
  unfold resolve
  rw [hdecode]
  cases hfound : payload.owner with
  | none => rfl
  | some o => simp only [if_neg (howner o hfound)]

/-- A payload is honoured for an object exactly if it resolves to the object's entry. -/
theorem honours_iff_resolve (h : Holdings) (r : Nat) (payload : Payload) (object : Object) :
    h.Honours r payload object ↔ ∃ handle o, h.resolve r payload = .ok (handle, o) ∧
      (h.registry r).borrow handle = .ok object := by
  constructor
  · rintro ⟨handle, o, hparse, _, hborrow, howner, hentry⟩
    have hdecode := (decode_eq_ok_iff h r payload.bytes handle).mpr ⟨hparse, object, hborrow⟩
    exact ⟨handle, o, (resolve_eq_ok_iff h r payload handle o).mpr ⟨hdecode, howner, hentry⟩,
      hborrow⟩
  · rintro ⟨handle, o, hresolve, hborrow⟩
    obtain ⟨hdecode, howner, hentry⟩ := (resolve_eq_ok_iff h r payload handle o).mp hresolve
    obtain ⟨hparse, _⟩ := (decode_eq_ok_iff h r payload.bytes handle).mp hdecode
    exact ⟨handle, o, hparse, ((Registry.borrow_eq_ok_iff _ _ _).mp hborrow).1, hborrow, howner,
      hentry⟩

/-- A payload that is refused does not resolve, for the same reason. -/
theorem Refuses.resolve_eq {h : Holdings} {r : Nat} {payload : Payload} {fault : Fault}
    (hrefuses : h.Refuses r payload fault) : h.resolve r payload = .error fault := by
  cases hrefuses with
  | form hparse => exact resolve_of_decode_error (decode_of_parse_error h r hparse)
  | foreign hparse hother =>
    apply resolve_of_decode_error
    rw [decode_of_parse h r hparse, Registry.borrow_foreign hother]
    rfl
  | stale hparse hown hdead =>
    apply resolve_of_decode_error
    rw [decode_of_parse h r hparse, Registry.borrow_of_dead hown hdead]
    rfl
  | detached hparse hborrow howner =>
    refine resolve_of_decode ?_ howner
    rw [decode_of_parse h r hparse, hborrow]
    rfl

/-- The reasons leave nothing out: what is not refused is honoured. -/
theorem refuses_or_honours (h : Holdings) (r : Nat) (payload : Payload) :
    (∃ fault, h.Refuses r payload fault) ∨ ∃ object, h.Honours r payload object := by
  cases hparse : Token.parse payload.bytes with
  | error fault => exact Or.inl ⟨fault, .form hparse⟩
  | ok handle =>
    by_cases hown : handle.registry = (h.registry r).identity
    · by_cases hdead : ∀ object, (h.registry r).borrow handle ≠ .ok object
      · exact Or.inl ⟨_, .stale hparse hown hdead⟩
      · obtain ⟨object, hborrow⟩ := not_forall_not.mp hdead
        by_cases howner : ∀ o, payload.owner = some o → h.entryOf? o ≠ some handle
        · exact Or.inl ⟨_, .detached hparse hborrow howner⟩
        · simp only [not_forall, not_not] at howner
          obtain ⟨o, howner, hentry⟩ := howner
          exact Or.inr ⟨object, handle, o, hparse, hown, hborrow, howner, hentry⟩
    · exact Or.inl ⟨_, .foreign hparse hown⟩

/-- A payload is refused for the first reason that applies. -/
theorem resolve_eq_error_iff (h : Holdings) (r : Nat) (payload : Payload) (fault : Fault) :
    h.resolve r payload = .error fault ↔ h.Refuses r payload fault := by
  refine ⟨fun hresolve => ?_, Refuses.resolve_eq⟩
  rcases refuses_or_honours h r payload with ⟨reason, hrefuses⟩ | ⟨object, hhonours⟩
  · rw [hrefuses.resolve_eq] at hresolve
    cases hresolve
    exact hrefuses
  · obtain ⟨handle, o, hresolved, _⟩ := (honours_iff_resolve h r payload object).mp hhonours
    rw [hresolved] at hresolve
    cases hresolve

end Ferry.Holdings
