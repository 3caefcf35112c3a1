import Ferry.Proofs.Text.Reading
import Ferry.Status.Text

/-!
# Shown bytes cannot be mistaken

The text of a failure shows the bytes of each slot between single quotes, and the diagnostic text of
a payload shows them between double quotes.  Bytes are arbitrary, and may well read like a quote, a
bracket or a whole slot.  They are escaped, so a reader who knows the keys can tell the bytes of
every slot from the text.

Main statements: `text_eq_text_iff`, `debugText_eq_debugText_iff`, and `unmistakable_text`, which
takes them together.

## Sections

1. The text of a slot.
2. The text of a failure.
3. The diagnostic text of a payload.
4. What can be told.
-/

namespace Ferry

open Text

namespace Status

/-! ## §1 The text of a slot -/

theorem toList_slotText (key : String) (payload : Payload) :
    (slotText (key, payload)).toList =
      (" [" ++ key ++ "='").toList ++ (payload.bytes.flatMap Escape.byte ++ '\x27' :: [']']) := by
  simp [slotText, Payload.escaped, Escape.bytes]

/-- The text of a slot tells its bytes, whatever follows. -/
theorem slotText_append_inj {key : String} {payload payload' : Payload} {rest rest' : List Char} :
    (slotText (key, payload)).toList ++ rest = (slotText (key, payload')).toList ++ rest' ↔
      payload.bytes = payload'.bytes ∧ rest = rest' := by
  simp only [toList_slotText, List.append_assoc, List.cons_append, List.nil_append,
    List.append_cancel_left_eq]
  rw [Escape.readsBack_byte.flatMap_append_inj, List.cons_inj_right]

/-- Slots with the same keys have one text exactly if their bytes agree.  Further slots are seen as
such. -/
theorem slotTexts_eq_iff {row row' : List (String × Payload)}
    (hkeys : row.map Prod.fst <+: row'.map Prod.fst) :
    (row.flatMap fun entry => (slotText entry).toList)
        = (row'.flatMap fun entry => (slotText entry).toList) ↔
      row.map (Payload.bytes ∘ Prod.snd) = row'.map (Payload.bytes ∘ Prod.snd) := by
  induction row generalizing row' with
  | nil =>
    cases row' with
    | nil => simp
    | cons entry others =>
      obtain ⟨key, payload⟩ := entry
      simp only [List.flatMap_cons, toList_slotText]
      simp
  | cons entry others ih =>
    cases row' with
    | nil => simp at hkeys
    | cons entry' others' =>
      obtain ⟨key, payload⟩ := entry
      obtain ⟨key', payload'⟩ := entry'
      obtain ⟨rfl, hothers⟩ := List.cons_prefix_cons.mp hkeys
      simp only [List.flatMap_cons, slotText_append_inj, ih hothers, List.map_cons,
        Function.comp_apply, List.cons.injEq]

/-! ## §2 The text of a failure -/

theorem text_of_failed {status : Status} (hfailed : status.isOk = false) :
    status.text.toList = (status.code.name ++ ": " ++ status.message).toList
      ++ status.slots.entries.flatMap fun entry => (slotText entry).toList := by
  rw [text, hfailed]
  simp [String.toList_join, List.flatMap_map]

/-- The text of a failure tells the bytes of its slots to a reader who knows the keys. -/
theorem text_eq_text_iff {a b : Status} (hfailed : a.isOk = false) (hcode : a.code = b.code)
    (hmessage : a.message = b.message) (hkeys : a.keys <+: b.keys) :
    a.text = b.text ↔ a.payloads.map Payload.bytes = b.payloads.map Payload.bytes := by
  have hfailed' : b.isOk = false := by
    rwa [isOk, ← hcode]
  rw [← String.toList_inj, text_of_failed hfailed, text_of_failed hfailed', hcode, hmessage,
    List.append_cancel_left_eq, slotTexts_eq_iff hkeys]
  simp only [payloads, KeyedList.values, List.map_map]

end Status

/-! ## §3 The diagnostic text of a payload -/

namespace Payload

/-- Escaping loses nothing. -/
theorem escaped_eq_escaped_iff {payload payload' : Payload} :
    payload.escaped = payload'.escaped ↔ payload.bytes = payload'.bytes := by
  rw [escaped, escaped, String.ofList_inj]
  exact Escape.readsBack_byte.flatMap_injective.eq_iff

theorem toList_debugText (payload : Payload) :
    payload.debugText.toList = "Payload \x7b bytes: ".toList ++
      (Quoted.chars payload.escaped.toList ++
        (", owned: " ++ boolText payload.isOwned ++ " \x7d").toList) := by
  show ("Payload \x7b bytes: " ++ Quoted.string payload.escaped ++ ", owned: "
    ++ boolText payload.isOwned ++ " \x7d").toList = _
  simp only [Quoted.string, String.toList_append, String.toList_ofList, List.append_assoc]

theorem boolText_inj {b b' : Bool} : boolText b = boolText b' ↔ b = b' := by
  cases b <;> cases b' <;> simp [boolText]

/-- The diagnostic text of a payload tells its bytes and whether it has an owner. -/
theorem debugText_eq_debugText_iff {payload payload' : Payload} :
    payload.debugText = payload'.debugText ↔
      payload.bytes = payload'.bytes ∧ payload.isOwned = payload'.isOwned := by
  rw [← String.toList_inj, toList_debugText, toList_debugText, List.append_cancel_left_eq,
    Quoted.chars_append_inj, String.toList_inj, String.toList_inj]
  constructor
  · rintro ⟨hescaped, howned⟩
    refine ⟨escaped_eq_escaped_iff.mp hescaped, boolText_inj.mp ?_⟩
    simpa [← String.toList_inj] using howned
  · rintro ⟨hbytes, howned⟩
    exact ⟨escaped_eq_escaped_iff.mpr hbytes, by rw [howned]⟩

end Payload

/-! ## §4 What can be told -/

namespace Status

/-- Shown bytes cannot be mistaken for other bytes, nor for anything else in the text. -/
structure Unmistakable : Prop where
  /-- Failures of one code and message, with the same keys in the same order, have one text exactly
  if the bytes agree slot by slot. -/
  sameKeys : ∀ a b : Status, a.isOk = false → a.code = b.code → a.message = b.message →
    a.keys = b.keys →
      (a.text = b.text ↔ a.payloads.map Payload.bytes = b.payloads.map Payload.bytes)
  /-- No bytes read like a further slot: if one failure has slots behind those of the other, the
  texts differ. -/
  furtherSlots : ∀ a b : Status, a.isOk = false → a.code = b.code → a.message = b.message →
    a.keys <+: b.keys → a.keys ≠ b.keys → a.text ≠ b.text
  /-- No bytes read like the closing quote or the bracket: the text of a slot tells where it ends,
  whatever follows. -/
  ends : ∀ key payload payload' rest rest',
    slotText (key, payload) ++ rest = slotText (key, payload') ++ rest' ↔
      payload.bytes = payload'.bytes ∧ rest = rest'
  /-- Diagnostic texts agree exactly if the bytes do and both or neither have an owner. -/
  debug : ∀ payload payload' : Payload, payload.debugText = payload'.debugText ↔
    payload.bytes = payload'.bytes ∧ payload.isOwned = payload'.isOwned
  /-- Both texts show a byte by its letter, its digits or itself. -/
  escaping : Escape.Escaping

/-- Whatever the bytes are, and whatever texts stand around them, they can be told. -/
theorem unmistakable_text : Unmistakable where
  sameKeys _ _ hfailed hcode hmessage hkeys :=
    text_eq_text_iff hfailed hcode hmessage (hkeys ▸ List.prefix_rfl)
  furtherSlots a b hfailed hcode hmessage hbegins hne heq := by
    have hbytes := (text_eq_text_iff hfailed hcode hmessage hbegins).mp heq
    -- As many bytes mean as many slots, and then there are no further ones.
    have hlength : a.keys.length = b.keys.length := by
      have hcount := congrArg List.length hbytes
      simpa [payloads, KeyedList.values, keys, KeyedList.keys] using hcount
    exact hne (hbegins.eq_of_length hlength)
  ends key payload payload' rest rest' := by
    rw [← String.toList_inj, String.toList_append, String.toList_append, slotText_append_inj,
      String.toList_inj]
  debug _ _ := Payload.debugText_eq_debugText_iff
  escaping := Escape.escaping

/-- A failure with two slots. -/
def twoSlots (first second : String) : Status :=
  ((new .internal "boom").setSlot "k" (.ofText first)).setSlot "l" (.ofText second)

/-- Unescaped, the two failures would have the same text: a slot of each holds what reads like the
end of the slot and a further one.  A tab is told from a backslash and a letter as well. -/
theorem unmistakable_text_of_look_alike :
    (twoSlots "v'] [l='w" "x").isOk = false ∧
      (twoSlots "v'] [l='w" "x").keys = (twoSlots "v" "w'] [l='x").keys ∧
      (twoSlots "v'] [l='w" "x").text ≠ (twoSlots "v" "w'] [l='x").text ∧
      (Payload.ofText "\t").debugText ≠ (Payload.ofText "\\t").debugText := by
  have hfailed : (twoSlots "v'] [l='w" "x").isOk = false := rfl
  have hkeys : (twoSlots "v'] [l='w" "x").keys = (twoSlots "v" "w'] [l='x").keys := by
    decide +kernel
  refine ⟨hfailed, hkeys, fun heq => ?_, fun heq => ?_⟩
  · have hbytes := (unmistakable_text.sameKeys _ (twoSlots "v" "w'] [l='x") hfailed rfl rfl
      hkeys).mp heq
    exact absurd hbytes (by decide +kernel)
  · have hbytes := ((unmistakable_text.debug _ _).mp heq).1
    exact absurd hbytes (by decide +kernel)

/-- What reads like an escape is escaped as well. -/
example : ((new .notFound "no such key").setSlot "k" (.ofText "v\n\\n")).text =
    "NOT_FOUND: no such key [k='v\\n\\\\n']" := by
  decide +kernel

end Status

end Ferry
