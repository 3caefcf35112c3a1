import Ferry.Proofs.Bridge.Fallback
import Ferry.Proofs.Message
import Ferry.Proofs.Text.Trim

/-!
# Failures that lose their payloads

The plain exception of a failure has a message that says the code, unless its kind does.  The codes
that its kind stands for say nothing new: captured and made again from code and message alone, the
exception gets no second tag.  And its message is as clean as it will be, so trimming it once more
removes nothing.  A failure may therefore pass any number of bridges that lose its payload, be it
that the slot is erased or that another slot makes it ambiguous, and arrives with the kind and the
message that it had after the first.

On the way from one bridge to the next anything may happen that leaves the captured status in hand.

Main statements: `Node.plain_again`, what a plain exception is when it is made again;
`Bridge.Travels.arrived` and `Bridge.Trip.exists_arrival`, that it stays as it is and that it gets
through; and `settled_after`, what this comes to after a script.

## Sections

1. Clean messages
2. Kinds of codes
3. Detours
4. Trips
5. Any number of trips
6. After a script
-/

namespace Ferry

open Account Text

/-! ## §1 Clean messages -/

/-- A tag stands in brackets, so the message of a clean text is clean. -/
theorem Message.clean_compose (code : Code) (kind : Kind) {text : String}
    (hclean : Trim.Clean text.toList) : Trim.Clean (compose code kind text).toList := by
  by_cases native : kind.nativeCode? = some code
  · rwa [compose_of_native native]
  · refine ⟨fun c hhead => ?_, fun c hlast => ?_⟩
    · rw [toList_compose_of_not_native native, List.cons_append, List.head?_cons] at hhead
      cases hhead
      rfl
    · by_cases hempty : text = ""
      · rw [toList_compose_of_not_native native, hempty, List.getLast?_append] at hlast
        cases hlast
        rfl
      · -- The message ends as its text does.
        obtain ⟨before, hends⟩ := exists_compose_eq_append code kind text
        obtain ⟨last, htext⟩ := Option.ne_none_iff_exists'.mp
          (mt List.getLast?_eq_none_iff.mp (mt String.toList_eq_nil_iff.mp hempty))
        rw [hends, String.toList_append, List.getLast?_append, htext, Option.some_or] at hlast
        cases hlast
        exact hclean.last _ htext

theorem Node.clean_plain (code : Code) (text : String) :
    Trim.Clean (Node.plain true code text).message.toList :=
  Message.clean_compose code (Kind.ofCode code) (Trim.clean_string text)

/-! ## §2 Kinds of codes -/

namespace Kind

/-- The kind of a code is the kind of its own code. -/
theorem ofCode_code_ofCode (code : Code) : ofCode (ofCode code).code = ofCode code := by
  cases code <;> rfl

/-- The kind of a code says its own code without a tag. -/
theorem nativeCode?_ofCode (code : Code) :
    (ofCode code).nativeCode? = some (ofCode code).code := by
  cases code <;> rfl

end Kind

/-- Made again from the code and the message that it is captured with, a plain exception is as it
was.  Only a bridge that strips after one that did not could tell the difference. -/
theorem Node.plain_again {strip again : Bool} (hstrip : again = true → strip = true) (code : Code)
    (text : String) :
    Node.plain again (Node.plain strip code text).kind.code (Node.plain strip code text).message
      = Node.plain strip code text := by
  generalize hnode : Node.plain strip code text = node
  have hkind : node.kind = Kind.ofCode code := hnode ▸ rfl
  have hbare : node = { kind := node.kind, message := node.message } := hnode ▸ rfl
  have hkept : Message.prepare again node.message = node.message := by
    cases again with
    | false => rfl
    | true =>
      obtain rfl := hstrip rfl
      exact Trim.string_of_clean (hnode ▸ Node.clean_plain code text)
  -- Nothing is stripped once more, and the kind says the new code without a tag.
  rw [hbare, Node.plain, hkept, hkind, Kind.ofCode_code_ofCode,
    Message.compose_of_native (Kind.nativeCode?_ofCode code)]

namespace Bridge

/-! ## §3 Detours -/

/-- How a captured failure loses its payload. -/
inductive Detour where
  /-- The slot is erased. -/
  | erased
  /-- Another slot is added, and neither is raised. -/
  | joined (key : String) (payload : Payload)

namespace Detour

/-- What the status and the holdings are afterwards. -/
def apply (h : Holdings) (status : Status) : Detour → Holdings × Status
  | erased => h.eraseSlot status ExceptionSlot.raw.key
  | joined key payload => h.setSlot status key payload

/-- The shares that the status takes over. -/
def given : Detour → Multiset Share
  | erased => 0
  | joined _ payload => (payload.shares : List _)

/-- The other slot is not the one that the exception is in. -/
def Proper : Detour → Prop
  | erased => True
  | joined key _ => key ≠ ExceptionSlot.raw.key

/-- Why the exception in the slot is not raised. -/
def dispatch : Detour → Dispatch
  | erased => .plain
  | joined _ _ => .ambiguous

variable {b : Bridge} {h : Holdings} {status : Status} {payload : Payload} (detour : Detour)

theorem code_apply : (detour.apply h status).2.code = status.code := by
  cases detour <;> rfl

theorem message_apply : (detour.apply h status).2.message = status.message := by
  cases detour <;> rfl

theorem apply_transfer (h : Holdings) (status : Status) :
    Transfer h ((status.shares : Multiset Share) + detour.given) (detour.apply h status).1
      ((detour.apply h status).2.shares : List _) := by
  cases detour with
  | erased => exact (Holdings.eraseSlot_transfer h status _).cast (add_zero _) rfl
  | joined key payload => exact Holdings.setSlot_transfer h status key payload

/-- A bridge with the built-in handlers does not find the exception where it was, or not alone. -/
theorem classify_apply (hb : b.Built) (hproper : detour.Proper)
    (hslots : status.slots = ⟨[(ExceptionSlot.raw.key, payload)]⟩) :
    b.classify (detour.apply h status).2 = detour.dispatch := by
  cases detour with
  | erased =>
    have hkeys : (status.eraseSlot ExceptionSlot.raw.key).keys = [] := by
      simp [Status.eraseSlot, Status.keys, hslots, KeyedList.keys, KeyedList.erase,
        KeyedList.eraseEntry]
    refine classify_eq_plain_iff.mpr fun key hkey => ?_
    rw [show (apply h status .erased).2 = status.eraseSlot ExceptionSlot.raw.key from rfl,
      hkeys] at hkey
    cases hkey
  | joined key other =>
    have hne : (key == ExceptionSlot.raw.key) = false := beq_eq_false_iff_ne.mpr hproper
    have hkeys : (status.setSlot key other).keys = [ExceptionSlot.raw.key, key] := by
      simp [Status.setSlot, Status.keys, hslots, KeyedList.keys, KeyedList.insert,
        KeyedList.insertEntry, hne]
    refine classify_eq_ambiguous_iff.mpr ?_
    rw [show (apply h status (.joined key other)).2 = status.setSlot key other from rfl, hkeys]
    refine ⟨Nat.le_refl 2, ExceptionSlot.raw.key, List.mem_cons_self, ?_⟩
    exact Option.isSome_iff_exists.mpr ⟨_, hb.get?_key .raw⟩

theorem dispatch_ne_handler (key : String) : detour.dispatch ≠ .handler key := by
  cases detour <;> exact Dispatch.noConfusion

/-- A failure that has lost its payload is raised as the plain exception of its code and message. -/
theorem exists_raised (hb : b.Built) (hproper : detour.Proper) (hfails : status.isOk = false)
    (hslots : status.slots = ⟨[(ExceptionSlot.raw.key, payload)]⟩) {rest : Multiset Share}
    {d : Dealings}
    (ha : Consistent ⟨h, (status.shares : Multiset Share) + detour.given + rest, d⟩) :
    let lost := detour.apply h status
    b.classify lost.2 = detour.dispatch ∧
      ∃ after z, b.reconstruct lost.1 lost.2 = (after, .ok (some z)) ∧
        after.exceptions.content? z = some (.plain b.config.strip status.code status.message) ∧
        Consistent ⟨after, {Share.exception z} + rest, d⟩ := by
  intro lost
  have hclass : b.classify lost.2 = detour.dispatch := detour.classify_apply hb hproper hslots
  have hlost := (detour.apply_transfer h status rest d ha).consistent ha
  -- No handler is decided for, so what the slots hold does not matter.
  have hplain : b.reconstruct lost.1 lost.2 = b.settlePlain lost.1 lost.2 :=
    reconstruct_of_plain ((congrArg Code.isOk detour.code_apply).trans hfails)
      (fun key => hclass ▸ detour.dispatch_ne_handler key) lost.1
  obtain ⟨after, z, hsettled, hcontent⟩ := settlePlain_content hlost b lost.2
  have hresult := hplain.trans hsettled
  rw [detour.code_apply, detour.message_apply] at hcontent
  have hrun := b.reconstruct_transfer lost.1 lost.2 rest d hlost
  rw [hresult] at hrun
  exact ⟨hclass, after, z, hresult, hcontent, hrun.consistent hlost⟩

end Detour

/-! ## §4 Trips -/

/-- The way of a failure from a bridge that captures it to one that raises it. -/
structure Trip where
  sender : Bridge
  receiver : Bridge
  detour : Detour

namespace Trip

/-- What the receiver makes of the status, with its slots as the detour leaves them. -/
def arrive (trip : Trip) (h : Holdings) (status : Status) :
    Holdings × Except Fault (Option ExceptionRef) :=
  trip.receiver.reconstruct (trip.detour.apply h status).1 (trip.detour.apply h status).2

/-- The sender has a registry, and the receiver strips only if the failure was stripped before. -/
structure Fits (trip : Trip) (strip : Bool) (h : Holdings) : Prop where
  registry_lt : trip.sender.registry < h.registries.size
  built : trip.receiver.Built
  strip : trip.receiver.config.strip = true → strip = true
  proper : trip.detour.Proper

/-- From the capture of an exception in hand, anything may happen that leaves the captured status in
hand, together with what the other slot takes. -/
def Crosses (trip : Trip) (h : Holdings) (e : ExceptionRef) (rest : Multiset Share) (d : Dealings)
    (h' : Holdings) (rest' : Multiset Share) (d' : Dealings) : Prop :=
  Run ⟨(trip.sender.capture h e).1,
      ((trip.sender.capture h e).2.shares : Multiset Share) + ({Share.exception e} + rest), d⟩
    ⟨h', ((trip.sender.capture h e).2.shares : Multiset Share) + trip.detour.given + rest', d'⟩

/-- Nothing has to happen on the way. -/
theorem crosses_at_once {trip : Trip} (hgiven : trip.detour.given = 0) (h : Holdings)
    (e : ExceptionRef) (rest : Multiset Share) (d : Dealings) :
    trip.Crosses h e rest d (trip.sender.capture h e).1 ({Share.exception e} + rest) d := by
  rw [Crosses, hgiven, add_zero]
  exact Run.refl _

end Trip

variable {b : Bridge} {h h' after : Holdings} {e z : ExceptionRef} {rest rest' : Multiset Share}
  {d d' : Dealings} {strip : Bool} {node : Node} {trip : Trip}

/-- A captured exception is known by its code, its message and its one slot. -/
theorem capture_of_content (b : Bridge) (hnode : h.exceptions.content? e = some node) :
    ∃ payload, (b.capture h e).2
      = { code := node.kind.code, message := node.message,
          slots := ⟨[(ExceptionSlot.raw.key, payload)]⟩ } := by
  simp only [capture, hnode, carry_of_fails _ _ node.kind.isOk_code]
  exact ⟨_, rfl⟩

theorem capture_consistent (hr : b.registry < h.registries.size)
    (ha : Consistent ⟨h, {Share.exception e} + rest, d⟩) :
    Consistent ⟨(b.capture h e).1,
      ((b.capture h e).2.shares : Multiset Share) + ({Share.exception e} + rest), d⟩ := by
  have hcapture := (b.capture_transfer h hr
    (Multiset.mem_singleton_self (Share.exception e))).frame rest
  have hrun := hcapture 0 d (by rwa [add_zero])
  have hafter := hrun.consistent (by rwa [add_zero])
  rwa [add_zero, add_assoc] at hafter

/-- What is made of a captured exception that does not get through. -/
theorem Trip.exists_arrival (hfits : trip.Fits strip h)
    (ha : Consistent ⟨h, {Share.exception e} + rest, d⟩)
    (hnode : h.exceptions.content? e = some node)
    (hcrosses : trip.Crosses h e rest d h' rest' d') :
    let captured := (trip.sender.capture h e).2
    trip.receiver.classify (trip.detour.apply h' captured).2 = trip.detour.dispatch ∧
      ∃ after z, trip.arrive h' captured = (after, .ok (some z)) ∧
        after.exceptions.content? z
          = some (.plain trip.receiver.config.strip node.kind.code node.message) ∧
        Consistent ⟨after, {Share.exception z} + rest', d'⟩ := by
  intro captured
  have hsent := (capture_consistent hfits.registry_lt ha :)
  have hcrossed := hcrosses.consistent hsent
  obtain ⟨payload, hcaptured⟩ := capture_of_content trip.sender hnode
  -- The captured status is a value, and what happens on the way does not change it.
  have hcode : captured.code = node.kind.code := congrArg Status.code hcaptured
  have hmessage : captured.message = node.message := congrArg Status.message hcaptured
  have hfails : captured.isOk = false := (congrArg Code.isOk hcode).trans node.kind.isOk_code
  have hraised := trip.detour.exists_raised hfits.built hfits.proper hfails
    (congrArg Status.slots hcaptured) hcrossed
  rwa [hcode, hmessage] at hraised

/-! ## §5 Any number of trips -/

/-- A failure has gone from bridge to bridge, beginning with an exception in hand, and each time its
payload was lost. -/
inductive Travels (strip : Bool) (first : Account) (begun : ExceptionRef) :
    Account → ExceptionRef → Prop where
  | start : Travels strip first begun first begun
  | trip {h h' after : Holdings} {e z : ExceptionRef} {rest rest' : Multiset Share}
      {d d' : Dealings} (trip : Trip)
      (htravels : Travels strip first begun ⟨h, {Share.exception e} + rest, d⟩ e)
      (hfits : trip.Fits strip h) (hcrosses : trip.Crosses h e rest d h' rest' d')
      (hresult : trip.arrive h' (trip.sender.capture h e).2 = (after, .ok (some z))) :
      Travels strip first begun ⟨after, {Share.exception z} + rest', d'⟩ z

/-- What arrives is what set out. -/
theorem Travels.arrived {first a : Account} {begun : ExceptionRef} {code : Code} {text : String}
    (htravels : Travels strip first begun a e) (hfirst : first.Consistent)
    (hbegun : first.holdings.exceptions.content? begun = some (.plain strip code text)) :
    a.Consistent ∧ a.holdings.exceptions.content? e = some (.plain strip code text) := by
  induction htravels with
  | start => exact ⟨hfirst, hbegun⟩
  | trip trip _ hfits hcrosses hresult ih =>
    obtain ⟨ha, hnode⟩ := ih
    obtain ⟨_, after, z, harrived, hcontent, hafter⟩ :=
      trip.exists_arrival hfits ha hnode hcrosses
    -- The result of a trip is determined, so what arrived is what the step lemma speaks of.
    rw [harrived] at hresult
    cases hresult
    rw [Node.plain_again hfits.strip] at hcontent
    exact ⟨hafter, hcontent⟩

/-- The account in which the plain exception of a status has been made and is in hand. -/
def withPlain (b : Bridge) (a : Account) (status : Status) : Account :=
  ⟨(b.plainException a.holdings status).1,
    {Share.exception (b.plainException a.holdings status).2} + a.hand, a.dealings⟩

theorem consistent_withPlain {a : Account} (ha : a.Consistent) (b : Bridge) (status : Status) :
    (b.withPlain a status).Consistent :=
  (newException_transfer a.holdings (Kind.ofCode status.code)
    (status.plainMessage b.config.strip)).made ha

theorem plainException_setMessage (hstrip : b.config.strip = true) {status : Status}
    (hfails : status.isOk = false) {before behind : String}
    (hbefore : ∀ c ∈ before.toList, Trim.isBlank c = true)
    (hbehind : ∀ c ∈ behind.toList, Trim.isBlank c = true) (h : Holdings) :
    b.plainException h (status.setMessage (before ++ status.message ++ behind))
      = b.plainException h status := by
  have hmessage : (status.setMessage (before ++ status.message ++ behind)).plainMessage
      b.config.strip = status.plainMessage b.config.strip := by
    simp only [Status.plainMessage, Status.messageFor, Status.setMessage, hfails,
      Bool.false_eq_true, if_false, hstrip, Message.prepare, if_true,
      Trim.string_between _ hbefore hbehind]
  rw [plainException, hmessage, Status.code_setMessage, plainException]

/-- The plain exception of a failure, and what becomes of it. -/
structure Settled (b : Bridge) (a : Account) (status : Status) : Prop where
  content : (b.plainException a.holdings status).1.exceptions.content?
      (b.plainException a.holdings status).2
    = some (.plain b.config.strip status.code status.message)
  /-- A message that was stripped neither begins nor ends with a blank. -/
  clean : b.config.strip = true →
    Trim.Clean (Node.plain b.config.strip status.code status.message).message.toList
  /-- A bridge that strips does not see blanks around the message of the failure. -/
  blanks : b.config.strip = true → ∀ (before behind : String) (h : Holdings),
    (∀ c ∈ before.toList, Trim.isBlank c = true) → (∀ c ∈ behind.toList, Trim.isBlank c = true) →
    b.plainException h (status.setMessage (before ++ status.message ++ behind))
      = b.plainException h status
  /-- However often it was captured and made again without its payload, it has the same kind and
  the same message, and neither links nor frames. -/
  arrived : ∀ a' e,
    Travels b.config.strip (b.withPlain a status) (b.plainException a.holdings status).2 a' e →
    a'.holdings.exceptions.content? e
      = some (.plain b.config.strip status.code status.message)
  /-- It can always go on: what is captured next is not raised from its slot, and arrives. -/
  arrives : ∀ h e rest d (trip : Trip) h' rest' d',
    Travels b.config.strip (b.withPlain a status) (b.plainException a.holdings status).2
      ⟨h, {Share.exception e} + rest, d⟩ e →
    trip.Fits b.config.strip h → trip.Crosses h e rest d h' rest' d' →
    trip.receiver.classify (trip.detour.apply h' (trip.sender.capture h e).2).2
        = trip.detour.dispatch ∧
      ∃ after z, trip.arrive h' (trip.sender.capture h e).2 = (after, .ok (some z)) ∧
        after.exceptions.content? z
          = some (.plain b.config.strip status.code status.message)

theorem settled_of_consistent {a : Account} (ha : a.Consistent) (b : Bridge) {status : Status}
    (hfails : status.isOk = false) : Settled b a status := by
  have hmade := consistent_withPlain ha b status
  have hcontent := content?_plainException b a.holdings status
  refine
    { content := hcontent
      clean := fun hstrip => hstrip ▸ Node.clean_plain status.code status.message
      blanks := fun hstrip before behind h hbefore hbehind =>
        plainException_setMessage hstrip hfails hbefore hbehind h
      arrived := fun a' e htravels => (htravels.arrived hmade hcontent).2
      arrives := fun h e rest d trip h' rest' d' htravels hfits hcrosses => ?_ }
  obtain ⟨ha', hnode⟩ := htravels.arrived hmade hcontent
  obtain ⟨hclass, after, z, hresult, hagain, _⟩ :=
    trip.exists_arrival hfits ha' hnode hcrosses
  rw [Node.plain_again hfits.strip] at hagain
  exact ⟨hclass, after, z, hresult, hagain⟩

end Bridge

namespace Script.Session

/-! ## §6 After a script -/

/-- After a script, the plain exception of a failure says its code at most once, and settles it: the
exception comes out of any number of trips that lose the payload as it went in. -/
theorem settled_after (identities : List UInt64) (bridges : List Bridge) (commands : List Command)
    (b : Bridge) {status : Status} (fails : status.isOk = false) :
    b.Settled (((start identities bridges).after commands).account
      ((start identities bridges).dealings {} commands)) status :=
  Bridge.settled_of_consistent (after_consistent identities bridges commands) b fails

/-- A script that leaves an entry behind. -/
def leaving : List Command :=
  [.exception (.new "e" .type "odd"), .bridge (.capture 0 "e" "s")]

/-- A failure with blanks around its message. -/
def blurred : Status :=
  Status.new .notFound " gone \n"

/-- An exception is captured, and a note is put beside it. -/
def noting : Bridge.Trip :=
  { sender := .new 0 {}, receiver := .new 0 {}, detour := .joined "note" (.ofBytes [1]) }

/-- The tag is there after the first bridge, and not twice after the second. -/
theorem settled_after_noting :
    blurred.isOk = false ∧
      let made := (Bridge.new 0 {}).plainException
        ((start [7] [.new 0 {}]).after leaving).holdings blurred
      let captured := noting.sender.capture made.1 made.2
      made.1.exceptions.content? made.2
          = some { kind := .value, message := "[NOT_FOUND] gone" } ∧
        noting.receiver.classify (noting.detour.apply captured.1 captured.2).2 = .ambiguous ∧
        ∃ after z, noting.arrive captured.1 captured.2 = (after, .ok (some z)) ∧
          after.exceptions.content? z
            = some { kind := .value, message := "[NOT_FOUND] gone" } := by
  have hfails : blurred.isOk = false := by decide
  have hnode : Node.plain true blurred.code blurred.message
      = { kind := .value, message := "[NOT_FOUND] gone" } := by decide +kernel
  have hsettled := settled_after [7] [.new 0 {}] leaving (.new 0 {}) hfails
  have hcontent := hsettled.content
  have hfits : noting.Fits true ((Bridge.new 0 {}).plainException
      ((start [7] [.new 0 {}]).after leaving).holdings blurred).1 :=
    { registry_lt := by decide +kernel
      built := .new 0 {}
      strip := fun _ => rfl
      proper := by
        show "note" ≠ ExceptionSlot.raw.key
        decide }
  have harrives := hsettled.arrives _ _ _ _ noting _ _ _ .start hfits
    (Bridge.Trip.crosses_at_once rfl _ _ _ _)
  rw [show (Bridge.new 0 {}).config.strip = true from rfl, hnode] at hcontent harrives
  exact ⟨hfails, hcontent, harrives⟩

end Script.Session

end Ferry
