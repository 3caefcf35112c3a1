import Ferry.Proofs.Resolve
import Ferry.Proofs.Token.Grammar
import Ferry.Script.ObjectCommand
import Mathlib.Order.Bounds.Basic

/-!
# Why bytes are no token

Bytes that are no token are refused for the first rule that they break, however many others they
break as well.  Their number is looked at first, then the delimiters, and then the fields one after
the other: a field is complete, or it is the reason and nothing behind it is looked at.

The fields are read by a loop that stops at the first of them that is not complete.  So there are as
many turns as there are complete fields in front, and what follows these decides the rest.

Main statements: `readField_cases`, one turn; `readRow_cases`, all of them; `parse_cases`, what is
looked at before; and `refusedInOrder`, which rule is reported for which bytes.

## Sections

1. Leading fields.
2. One field.
3. Rows of fields.
4. The first rule that is broken.
-/

namespace Ferry.Token

open Ferry.Text

/-! ## §1 Leading fields -/

/-- Bytes begin with a number of complete fields, each a mark and sixteen digits, and go on with
others. -/
inductive Begins : Nat → List UInt8 → List UInt8 → Prop where
  | nil (bytes : List UInt8) : Begins 0 bytes bytes
  | cons {n : Nat} {row bytes rest : List UInt8} (hlength : row.length = fieldDigits)
      (hdigits : ∀ b ∈ row, IsDigit b) (hbegins : Begins n bytes rest) :
      Begins (n + 1) (fieldMark ++ row ++ bytes) rest

variable {n m count : Nat} {bytes body rest rest' : List UInt8}

theorem begins_zero_iff : Begins 0 bytes rest ↔ bytes = rest := by
  constructor
  · intro hbegins
    cases hbegins
    rfl
  · rintro rfl
    exact .nil bytes

theorem begins_succ_iff :
    Begins (n + 1) bytes rest ↔ ∃ row more, bytes = fieldMark ++ row ++ more ∧
      row.length = fieldDigits ∧ (∀ b ∈ row, IsDigit b) ∧ Begins n more rest := by
  constructor
  · intro hbegins
    cases hbegins with
    | @cons _ row more _ hlength hdigits hbegins =>
      exact ⟨row, more, rfl, hlength, hdigits, hbegins⟩
  · rintro ⟨row, more, rfl, hlength, hdigits, hbegins⟩
    exact .cons hlength hdigits hbegins

/-- A field takes up a fixed number of bytes, so it is seen where it ends. -/
theorem field_append_inj {row row' more more' : List UInt8} (hlength : row.length = fieldDigits)
    (hlength' : row'.length = fieldDigits)
    (heq : fieldMark ++ row ++ more = fieldMark ++ row' ++ more') : row = row' ∧ more = more' := by
  rw [List.append_assoc, List.append_assoc, List.append_cancel_left_eq] at heq
  exact List.append_inj heq (hlength.trans hlength'.symm)

/-- What follows the leading fields is determined by their number. -/
theorem Begins.rest_eq (hfirst : Begins n bytes rest) (hsecond : Begins n bytes rest') :
    rest = rest' := by
  induction hfirst with
  | nil bytes => exact begins_zero_iff.mp hsecond
  | cons hlength _ _ ih =>
    obtain ⟨row', more', heq, hlength', _, hmore'⟩ := begins_succ_iff.mp hsecond
    obtain ⟨_, rfl⟩ := field_append_inj hlength hlength' heq
    exact ih hmore'

/-- No more fields lead than those after which no other follows. -/
theorem Begins.le_of_stuck (hfirst : Begins n bytes rest) (hstuck : ∀ more, ¬Begins 1 rest more)
    (hsecond : Begins m bytes rest') : m ≤ n := by
  induction hfirst generalizing m with
  | nil bytes =>
    cases m with
    | zero => exact Nat.le_refl 0
    | succ m =>
      obtain ⟨row, more, rfl, hlength, hdigits, _⟩ := begins_succ_iff.mp hsecond
      exact absurd (.cons hlength hdigits (.nil more)) (hstuck more)
  | cons hlength _ _ ih =>
    cases m with
    | zero => exact Nat.zero_le _
    | succ m =>
      obtain ⟨row', more', heq, hlength', _, hmore'⟩ := begins_succ_iff.mp hsecond
      obtain ⟨_, rfl⟩ := field_append_inj hlength hlength' heq
      exact Nat.succ_le_succ (ih hstuck hmore')

/-- Of the three fields that are read, just so many are complete, and `rest` follows them. -/
structure Leading (body : List UInt8) (n : Nat) (rest : List UInt8) : Prop where
  begins : Begins n body rest
  isGreatest : IsGreatest {m | m ≤ 3 ∧ ∃ rest, Begins m body rest} n

theorem Leading.unique (hfirst : Leading body n rest) (hsecond : Leading body m rest') :
    m = n ∧ rest' = rest := by
  have hsame : m = n := hsecond.isGreatest.unique hfirst.isGreatest
  subst hsame
  exact ⟨rfl, hsecond.begins.rest_eq hfirst.begins⟩

/-! ## §2 One field -/

/-- Why bytes do not begin with a field: there is no mark, too few bytes follow the mark, or one of
the sixteen bytes is no digit. -/
def fieldFlaw (bytes : List UInt8) : TokenFlaw :=
  match fieldMark.isPrefixOf? bytes with
  | none => .missingFieldMark
  | some after => if after.length < fieldDigits then .shortField else .badDigit

theorem isPrefixOf?_eq_none_iff {front bytes : List UInt8} :
    front.isPrefixOf? bytes = none ↔ ¬front <+: bytes := by
  rw [← Option.not_isSome_iff_eq_none, Option.isSome_iff_exists]
  simp only [List.isPrefixOf?_eq_some_iff_append_eq]
  rfl

theorem fieldFlaw_mark (after : List UInt8) :
    fieldFlaw (fieldMark ++ after)
      = if after.length < fieldDigits then .shortField else .badDigit := by
  have hmark : fieldMark.isPrefixOf? (fieldMark ++ after) = some after :=
    List.isPrefixOf?_eq_some_iff_append_eq.mpr rfl
  simp only [fieldFlaw, hmark]

theorem fieldFlaw_of_not_mark (hmark : ¬fieldMark <+: bytes) :
    fieldFlaw bytes = .missingFieldMark := by
  simp only [fieldFlaw, isPrefixOf?_eq_none_iff.mpr hmark]

/-- The flaw is told from the mark and from the number of bytes behind it, be they digits or not. -/
theorem fieldFlaw_eq_iff (bytes : List UInt8) :
    (fieldFlaw bytes = .missingFieldMark ↔ ¬fieldMark <+: bytes) ∧
      (fieldFlaw bytes = .shortField ↔
        ∃ after, bytes = fieldMark ++ after ∧ after.length < fieldDigits) ∧
      (fieldFlaw bytes = .badDigit ↔
        ∃ after, bytes = fieldMark ++ after ∧ fieldDigits ≤ after.length) ∧
      fieldFlaw bytes ≠ .trailingBytes ∧ fieldFlaw bytes ≠ .missingDelimiters := by
  by_cases hmark : fieldMark <+: bytes
  · obtain ⟨after, rfl⟩ := hmark
    rw [fieldFlaw_mark]
    by_cases hshort : after.length < fieldDigits
    · simp [hshort]
    · simp [hshort, Nat.le_of_not_lt hshort]
  · have hnone : ∀ after, bytes ≠ fieldMark ++ after := fun after heq =>
      hmark ⟨after, heq.symm⟩
    rw [fieldFlaw_of_not_mark hmark]
    simp [hmark, hnone]

/-- A field is read, or its flaw is reported. -/
theorem readField_cases (bytes : List UInt8) :
    (∃ word rest, readField bytes = .ok (word, rest) ∧ Begins 1 bytes rest) ∨
      readField bytes = .error (.malformed (fieldFlaw bytes)) ∧ ∀ more, ¬Begins 1 bytes more := by
  cases hread : readField bytes with
  | ok found =>
    obtain ⟨word, rest⟩ := found
    obtain ⟨row, rfl, hlength, hdigits, _⟩ := readField_eq_ok_iff.mp hread
    exact Or.inl ⟨word, rest, rfl, .cons hlength hdigits (.nil rest)⟩
  | error fault =>
    refine Or.inr ⟨?_, fun more hbegins => ?_⟩
    · simp only [readField, fieldFlaw] at hread ⊢
      cases hmark : fieldMark.isPrefixOf? bytes with
      | none =>
        rw [hmark] at hread
        exact hread.symm
      | some after =>
        rw [hmark] at hread
        by_cases hshort : after.length < fieldDigits
        · simp only [if_pos hshort] at hread ⊢
          exact hread.symm
        · simp only [if_neg hshort] at hread ⊢
          split at hread
          · exact hread.symm
          · cases hread
    · -- A complete field stands for some word and would be read as it.
      obtain ⟨row, _, rfl, hlength, hdigits, _⟩ := begins_succ_iff.mp hbegins
      obtain ⟨word, hrow⟩ := exists_isRow_iff.mpr ⟨hlength, hdigits⟩
      rw [readField_eq_ok_iff.mpr ⟨row, rfl, hrow⟩] at hread
      cases hread

/-! ## §3 Rows of fields -/

/-- Reads a number of fields and returns the bytes after them. -/
def readRow : Nat → List UInt8 → Except Fault (List UInt64 × List UInt8)
  | 0, bytes => .ok ([], bytes)
  | count + 1, bytes =>
    match readField bytes with
    | .error fault => .error fault
    | .ok (word, rest) =>
      match readRow count rest with
      | .error fault => .error fault
      | .ok (words, rest) => .ok (word :: words, rest)

/-- What is made of the words of a row and of the bytes after them. -/
def closeRow : List UInt64 × List UInt8 → Except Fault Handle
  | ([registry, slot, nonce], []) => .ok { registry, slot, nonce }
  | _ => .error (.malformed .trailingBytes)

/-- A row is read up to the first field that is not complete. -/
theorem readRow_cases (count : Nat) (bytes : List UInt8) :
    (∃ words rest, readRow count bytes = .ok (words, rest) ∧ words.length = count ∧
        Begins count bytes rest) ∨
      ∃ n rest, n < count ∧ Begins n bytes rest ∧ (∀ more, ¬Begins 1 rest more) ∧
        readRow count bytes = .error (.malformed (fieldFlaw rest)) := by
  induction count generalizing bytes with
  | zero => exact Or.inl ⟨[], bytes, rfl, rfl, .nil bytes⟩
  | succ count ih =>
    rcases readField_cases bytes with ⟨word, after, hread, hfield⟩ | ⟨hread, hstuck⟩
    · obtain ⟨row, more, rfl, hlength, hdigits, hmore⟩ := begins_succ_iff.mp hfield
      rw [begins_zero_iff.mp hmore] at hread ⊢
      rcases ih after with ⟨words, rest, hrow, hwords, hbegins⟩ |
        ⟨n, rest, hn, hbegins, hstuck, hrow⟩
      · refine Or.inl ⟨word :: words, rest, ?_, by rw [List.length_cons, hwords],
          .cons hlength hdigits hbegins⟩
        simp only [readRow, hread, hrow]
      · refine Or.inr ⟨n + 1, rest, Nat.succ_lt_succ hn, .cons hlength hdigits hbegins, hstuck, ?_⟩
        simp only [readRow, hread, hrow]
    · refine Or.inr ⟨0, bytes, Nat.succ_pos count, .nil bytes, hstuck, ?_⟩
      simp only [readRow, hread]

/-- The three fields of a body are a row, and nothing may follow them. -/
theorem readFields_eq_readRow (body : List UInt8) :
    readFields body = (readRow 3 body).bind closeRow := by
  simp only [readFields, readRow]
  cases readField body with
  | error fault => rfl
  | ok first =>
    dsimp only
    cases readField first.2 with
    | error fault => rfl
    | ok second =>
      dsimp only
      cases readField second.2 with
      | error fault => rfl
      | ok third =>
        obtain ⟨nonce, _ | ⟨b, more⟩⟩ := third
        · rfl
        · rfl

/-- A row of three words makes a handle just if it is all there is. -/
theorem closeRow_eq {words : List UInt64} (hwords : words.length = 3) (rest : List UInt8) :
    (rest = [] ∧ ∃ handle, closeRow (words, rest) = .ok handle) ∨
      rest ≠ [] ∧ closeRow (words, rest) = .error (.malformed .trailingBytes) := by
  obtain ⟨registry, slot, nonce, rfl⟩ := List.length_eq_three.mp hwords
  cases rest with
  | nil => exact Or.inl ⟨rfl, _, rfl⟩
  | cons b more => exact Or.inr ⟨List.cons_ne_nil b more, rfl⟩

/-! ## §4 The first rule that is broken -/

/-- A body has some number of leading fields, and no other. -/
theorem existsUnique_leading (body : List UInt8) :
    ∃! found : Nat × List UInt8, Leading body found.1 found.2 := by
  have hexists : ∃ n rest, Leading body n rest := by
    rcases readRow_cases 3 body with ⟨_, rest, _, _, hbegins⟩ |
      ⟨n, rest, hn, hbegins, hstuck, _⟩
    · exact ⟨3, rest, hbegins, ⟨Nat.le_refl 3, rest, hbegins⟩, fun m hm => hm.1⟩
    · refine ⟨n, rest, hbegins, ⟨hn.le, rest, hbegins⟩, ?_⟩
      rintro m ⟨_, rest', hbegins'⟩
      exact hbegins.le_of_stuck hstuck hbegins'
  obtain ⟨n, rest, hleading⟩ := hexists
  refine ⟨(n, rest), hleading, fun found hfound => ?_⟩
  obtain ⟨hcount, hrest⟩ := hleading.unique hfound
  exact Prod.ext hcount hrest

/-- What a body is read as is decided by what follows its leading fields. -/
theorem readFields_of_leading (hleading : Leading body n rest) :
    (n < 3 ∧ readFields body = .error (.malformed (fieldFlaw rest))) ∨
      (n = 3 ∧ rest ≠ [] ∧ readFields body = .error (.malformed .trailingBytes)) ∨
      n = 3 ∧ rest = [] ∧ ∃ handle, readFields body = .ok handle := by
  rw [readFields_eq_readRow]
  rcases readRow_cases 3 body with ⟨words, rest', hrow, hwords, hbegins⟩ |
    ⟨m, rest', hm, hbegins, hstuck, hrow⟩
  · have hthree : n = 3 := Nat.le_antisymm hleading.isGreatest.1.1
      (hleading.isGreatest.2 ⟨Nat.le_refl 3, rest', hbegins⟩)
    subst hthree
    obtain rfl := hleading.begins.rest_eq hbegins
    rw [hrow]
    rcases closeRow_eq hwords rest with ⟨hnil, hok⟩ | ⟨hne, herror⟩
    · exact Or.inr (Or.inr ⟨rfl, hnil, hok⟩)
    · exact Or.inr (Or.inl ⟨rfl, hne, herror⟩)
  · have hsame : n = m := Nat.le_antisymm (hbegins.le_of_stuck hstuck hleading.begins)
      (hleading.isGreatest.2 ⟨hm.le, rest', hbegins⟩)
    subst hsame
    obtain rfl := hleading.begins.rest_eq hbegins
    exact Or.inl ⟨hm, by rw [hrow]; rfl⟩

/-- What is reported for bytes within the limit whose delimiters are there, if they begin with `n`
of three fields behind the first delimiter and `rest` is what follows the fields. -/
structure ReportsField (bytes : List UInt8) (n : Nat) (rest : List UInt8) : Prop where
  trailingBytes_iff : parse bytes = .error (.malformed .trailingBytes) ↔ n = 3 ∧ rest ≠ []
  missingFieldMark_iff : parse bytes = .error (.malformed .missingFieldMark) ↔
    n < 3 ∧ ¬fieldMark <+: rest
  /-- Whether the bytes behind the mark are digits is not asked if there are too few of them. -/
  shortField_iff : parse bytes = .error (.malformed .shortField) ↔
    n < 3 ∧ ∃ after, rest = fieldMark ++ after ∧ after.length < fieldDigits
  badDigit_iff : parse bytes = .error (.malformed .badDigit) ↔
    n < 3 ∧ ∃ after, rest = fieldMark ++ after ∧ fieldDigits ≤ after.length
  /-- Nothing else is reported, and what is not reported is a token. -/
  ok_iff : (∃ handle, parse bytes = .ok handle) ↔ n = 3 ∧ rest = []

/-- Which rule is reported for bytes: the first that they break. -/
structure RefusedInOrder (bytes : List UInt8) : Prop where
  tooLong_iff : ∀ length limit, parse bytes = .error (.tooLong length limit) ↔
    maxLength < bytes.length ∧ length = bytes.length ∧ limit = maxLength
  missingDelimiters_iff : parse bytes = .error (.malformed .missingDelimiters) ↔
    bytes.length ≤ maxLength ∧ ¬(opening <+: bytes ∧ closing <:+ bytes.drop opening.length)
  /-- Every body has just one number of leading fields. -/
  existsUnique_leading : ∀ body, ∃! found : Nat × List UInt8, Leading body found.1 found.2
  /-- The rest is decided by what follows the leading fields. -/
  reportsField : ∀ body n rest, bytes.length ≤ maxLength → bytes = opening ++ (body ++ closing) →
    Leading body n rest → ReportsField bytes n rest
  /-- No registry is asked about bytes that are no token. -/
  decode_eq : (∀ handle, parse bytes ≠ .ok handle) → ∀ (h : Holdings) (r : Nat),
    h.decode r bytes = parse bytes
  /-- Decoding binds a variable at most; registries and what they hold stay as they are. -/
  decode_holdings : ∀ (session : Script.Session) (r : Nat) (name : Option String),
    ((Script.ObjectCommand.decode bytes r name).run session).1.holdings = session.holdings
  /-- A refusal is the reply, and nothing is bound. -/
  decode_reply : ∀ (session : Script.Session) (r : Nat) (name : Option String) (fault : Fault),
    r < session.holdings.registries.size → parse bytes = .error fault →
    (Script.ObjectCommand.decode bytes r name).run session = (session, .fault fault)

theorem parse_of_body (hshort : bytes.length ≤ maxLength)
    (hbody : bytes = opening ++ (body ++ closing)) : parse bytes = readFields body := by
  simp only [parse, if_neg (Nat.not_lt.mpr hshort), body?_eq_some_iff.mpr hbody]

/-- Both delimiters are there just if there is a body between them. -/
theorem delimited_iff :
    (opening <+: bytes ∧ closing <:+ bytes.drop opening.length) ↔
      ∃ body, bytes = opening ++ (body ++ closing) := by
  constructor
  · rintro ⟨⟨after, rfl⟩, hclosing⟩
    rw [List.drop_left] at hclosing
    obtain ⟨body, rfl⟩ := hclosing
    exact ⟨body, rfl⟩
  · rintro ⟨body, rfl⟩
    rw [List.drop_left]
    exact ⟨List.prefix_append _ _, List.suffix_append _ _⟩

/-- Bytes are too long, or a delimiter is missing, or what stands between the delimiters decides. -/
theorem parse_cases (bytes : List UInt8) :
    (maxLength < bytes.length ∧ parse bytes = .error (.tooLong bytes.length maxLength)) ∨
      (bytes.length ≤ maxLength ∧ (∀ body, bytes ≠ opening ++ (body ++ closing)) ∧
        parse bytes = .error (.malformed .missingDelimiters)) ∨
      bytes.length ≤ maxLength ∧
        ∃ body, bytes = opening ++ (body ++ closing) ∧ parse bytes = readFields body := by
  by_cases hlong : maxLength < bytes.length
  · exact Or.inl ⟨hlong, parse_tooLong hlong⟩
  · have hshort := Nat.le_of_not_lt hlong
    cases hbody : body? bytes with
    | none =>
      refine Or.inr (Or.inl ⟨hshort, fun body heq => ?_, ?_⟩)
      · rw [body?_eq_some_iff.mpr heq] at hbody
        cases hbody
      · simp only [parse, if_neg hlong, hbody]
    | some body =>
      have hbytes := body?_eq_some_iff.mp hbody
      exact Or.inr (Or.inr ⟨hshort, body, hbytes, parse_of_body hshort hbytes⟩)

theorem reportsField_of_leading (hshort : bytes.length ≤ maxLength)
    (hbody : bytes = opening ++ (body ++ closing)) (hleading : Leading body n rest) :
    ReportsField bytes n rest := by
  obtain ⟨hmark, hfew, hbad, htrailing, _⟩ := fieldFlaw_eq_iff rest
  rcases readFields_of_leading hleading with ⟨hn, hread⟩ | ⟨rfl, hne, hread⟩ |
    ⟨rfl, hnil, handle, hread⟩
  · rw [← parse_of_body hshort hbody] at hread
    have hthree : n ≠ 3 := hn.ne
    constructor <;> simp [hread, hn, hthree, hmark, hfew, hbad, htrailing]
  · rw [← parse_of_body hshort hbody] at hread
    constructor <;> simp [hread, hne]
  · rw [← parse_of_body hshort hbody] at hread
    constructor <;> simp [hread, hnil]

/-- What stands between the delimiters is refused for no reason that lies outside of it. -/
theorem readFields_ne_outside (body : List UInt8) :
    readFields body ≠ .error (.malformed .missingDelimiters) ∧
      ∀ length limit, readFields body ≠ .error (.tooLong length limit) := by
  obtain ⟨⟨n, rest⟩, hleading, _⟩ := existsUnique_leading body
  obtain ⟨_, _, _, _, hdelimiters⟩ := fieldFlaw_eq_iff rest
  rcases readFields_of_leading hleading with ⟨_, hread⟩ | ⟨_, _, hread⟩ | ⟨_, _, handle, hread⟩ <;>
    simp [hread, hdelimiters]

theorem parse_eq_tooLong_iff (bytes : List UInt8) (length limit : Nat) :
    parse bytes = .error (.tooLong length limit) ↔
      maxLength < bytes.length ∧ length = bytes.length ∧ limit = maxLength := by
  rcases parse_cases bytes with ⟨hlong, hparse⟩ | ⟨hshort, _, hparse⟩ |
    ⟨hshort, body, _, hparse⟩
  · simp [hparse, hlong, eq_comm]
  · simp [hparse, Nat.not_lt.mpr hshort]
  · simp [hparse, Nat.not_lt.mpr hshort, (readFields_ne_outside body).2 length limit]

theorem parse_eq_missingDelimiters_iff (bytes : List UInt8) :
    parse bytes = .error (.malformed .missingDelimiters) ↔
      bytes.length ≤ maxLength ∧
        ¬(opening <+: bytes ∧ closing <:+ bytes.drop opening.length) := by
  rw [delimited_iff]
  rcases parse_cases bytes with ⟨hlong, hparse⟩ | ⟨hshort, hnone, hparse⟩ |
    ⟨hshort, body, hbytes, hparse⟩
  · simp [hparse, Nat.not_le.mpr hlong]
  · simp [hparse, hshort, hnone]
  · refine iff_of_false ?_ fun hboth => hboth.2 ⟨body, hbytes⟩
    rw [hparse]
    exact (readFields_ne_outside body).1

/-- Decoding binds a variable at most. -/
theorem holdings_decode (session : Script.Session) (bytes : List UInt8) (r : Nat)
    (name : Option String) :
    ((Script.ObjectCommand.decode bytes r name).run session).1.holdings = session.holdings := by
  simp only [Script.ObjectCommand.run, Script.ObjectCommand.registry?]
  split
  · simp only [Script.ObjectCommand.perform]
    cases session.holdings.decode r bytes with
    | error fault => rfl
    | ok handle => cases name <;> rfl
  · rfl

/-- Bytes are refused for the first rule of the grammar that they break: the limit, the delimiters,
or what follows the fields that are complete.  The registry that they are decoded for is not
asked. -/
theorem refusedInOrder (bytes : List UInt8) : RefusedInOrder bytes := by
  refine
    { tooLong_iff := parse_eq_tooLong_iff bytes
      missingDelimiters_iff := parse_eq_missingDelimiters_iff bytes
      existsUnique_leading := existsUnique_leading
      reportsField := fun body n rest => reportsField_of_leading
      decode_eq := fun hnone h r => ?_
      decode_holdings := fun session r name => holdings_decode session bytes r name
      decode_reply := fun session r name fault hr hparse => ?_ }
  · cases hparse : parse bytes with
    | error fault => exact Holdings.decode_of_parse_error h r hparse
    | ok handle => exact absurd hparse (hnone handle)
  · simp only [Script.ObjectCommand.run, Script.ObjectCommand.registry?, if_pos hr,
      Script.ObjectCommand.perform, Holdings.decode_of_parse_error session.holdings r hparse]

/-- Behind the mark stands one letter that is no digit.  That it is only one is reported. -/
example : parse (opening ++ fieldMark ++ Ascii.bytes ['z'] ++ closing)
    = .error (.malformed .shortField) := by
  decide

end Ferry.Token
