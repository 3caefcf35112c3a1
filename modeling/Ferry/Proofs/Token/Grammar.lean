import Ferry.Proofs.Token.RoundTrip
import Mathlib.Data.Nat.Digits.Defs
import Mathlib.Data.Nat.Digits.Lemmas

/-!
# The grammar of tokens

Which bytes are a token, and of which handle.  Two descriptions are given and both are exact.
Turning the digits of the bytes into lower case gives the token that the handle is written as; and
the bytes have the fixed form with three rows of sixteen digits, which stand for the words of the
handle.  Tokens of one handle therefore differ in the case of digits and in nothing else.

Main statements: `parse_eq_ok_iff_lowerDigits`, `parse_eq_ok_iff_reads`, `parse_eq_parse_iff` and,
with all of them together, `grammar`.

## Sections

1. Digits as bytes.
2. Rows of digits.
3. The parts of a token.
4. Digits by their place.
5. Two descriptions of tokens.
6. Tokens of one handle.
-/

namespace Ferry.Token

open Ferry.Text

/-! ## §1 Digits as bytes -/

/-- The bytes `0` to `9`, `A` to `F` and `a` to `f`. -/
def IsDigit (b : UInt8) : Prop :=
  (48 ≤ b ∧ b ≤ 57) ∨ (65 ≤ b ∧ b ≤ 70) ∨ (97 ≤ b ∧ b ≤ 102)

instance (b : UInt8) : Decidable (IsDigit b) :=
  inferInstanceAs (Decidable (_ ∨ _))

/-- What a digit stands for. -/
def digitOf (b : UInt8) : Nat :=
  if b ≤ 57 then b.toNat - 48 else if b ≤ 70 then b.toNat - 55 else b.toNat - 87

/-- A byte with `A` to `F` turned into `a` to `f`. -/
def lowerByte (b : UInt8) : UInt8 :=
  if 65 ≤ b ∧ b ≤ 70 then b + 32 else b

/-- One letter from `a` to `f` in both of its cases. -/
def SameLetter (x y : UInt8) : Prop :=
  (65 ≤ x ∧ x ≤ 70 ∧ y = x + 32) ∨ (65 ≤ y ∧ y ≤ 70 ∧ x = y + 32)

/-- There are few bytes, so what holds of all of them may be tried. -/
theorem forall_byte {p : UInt8 → Prop} (h : ∀ n : Fin 256, p (UInt8.ofFin n)) (b : UInt8) :
    p b := h b.toFin

/-- The digits that are read are these bytes, with these values. -/
theorem digitValue?_eq_some_iff {b : UInt8} {d : Nat} :
    Hex.digitValue? (Ascii.charOfByte b) = some d ↔ IsDigit b ∧ digitOf b = d := by
  have htable : Hex.digitValue? (Ascii.charOfByte b)
      = if IsDigit b then some (digitOf b) else none := by
    revert b
    apply forall_byte
    decide +kernel
  rw [htable]
  split <;> simp_all

theorem digitOf_lt {b : UInt8} (hb : IsDigit b) : digitOf b < 16 := by
  have hread := digitValue?_eq_some_iff.mpr ⟨hb, rfl⟩
  exact Hex.digitValue?_lt hread

/-- The bytes that turn into the written digit of a number are the digits that stand for it. -/
theorem lowerByte_eq_digit_iff {b : UInt8} {d : Nat} (hd : d < 16) :
    lowerByte b = (Hex.digit d).toNat.toUInt8 ↔ IsDigit b ∧ digitOf b = d := by
  have htable : ∀ d : Fin 16,
      lowerByte b = (Hex.digit d.val).toNat.toUInt8 ↔ IsDigit b ∧ digitOf b = d.val := by
    revert b
    apply forall_byte
    decide +kernel
  exact htable ⟨d, hd⟩

theorem lowerByte_eq_lowerByte_iff {x y : UInt8} :
    lowerByte x = lowerByte y ↔ x = y ∨ SameLetter x y := by
  simp only [lowerByte, SameLetter, ← UInt8.toNat_inj, UInt8.le_iff_toNat_le]
  have hx := x.toNat_lt
  have hy := y.toNat_lt
  split <;> split <;> simp_all <;> omega

/-! ## §2 Rows of digits -/

/-- What a row of digits stands for: its last digit counts ones, the one before it sixteens. -/
def rowValue (row : List UInt8) : Nat :=
  Nat.ofDigits 16 (row.reverse.map digitOf)

/-- Sixteen digits that stand for a word. -/
structure IsRow (row : List UInt8) (word : UInt64) : Prop where
  length : row.length = fieldDigits
  digits : ∀ b ∈ row, IsDigit b
  value : rowValue row = word.toNat

theorem rowValue_concat (row : List UInt8) (b : UInt8) :
    rowValue (row ++ [b]) = digitOf b + 16 * rowValue row := by
  simp [rowValue, Nat.ofDigits_cons]

theorem rowValue_lt {row : List UInt8} (hrow : ∀ b ∈ row, IsDigit b) :
    rowValue row < 16 ^ row.length := by
  have hdigits : ∀ d ∈ row.reverse.map digitOf, d < 16 := by
    simp only [List.mem_map, List.mem_reverse]
    rintro d ⟨b, hb, rfl⟩
    exact digitOf_lt (hrow b hb)
  simpa [rowValue] using Nat.ofDigits_lt_base_pow_length (by decide) hdigits

/-- A row of digits is read as what it stands for, however many digits it has. -/
theorem value?_eq_some_iff {row : List UInt8} {n : Nat} :
    Hex.value? (Ascii.chars row) = some n ↔ (∀ b ∈ row, IsDigit b) ∧ rowValue row = n := by
  induction row using List.reverseRecOn generalizing n with
  | nil => simp [Hex.value?, Hex.valueFrom?, Ascii.chars, rowValue]
  | append_singleton row b ih =>
    have hread : Hex.value? (Ascii.chars (row ++ [b])) = some n ↔
        ∃ m d, Hex.value? (Ascii.chars row) = some m
          ∧ Hex.digitValue? (Ascii.charOfByte b) = some d ∧ 16 * m + d = n := by
      rw [Ascii.chars, List.map_append, Hex.value?, Hex.valueFrom?_append, Option.bind_eq_some_iff]
      simp only [List.map_singleton, Hex.valueFrom?]
      cases Hex.digitValue? (Ascii.charOfByte b) <;> simp [Ascii.chars, Hex.value?]
    simp only [hread, ih, digitValue?_eq_some_iff, rowValue_concat, List.forall_mem_append,
      List.forall_mem_singleton]
    constructor
    · rintro ⟨m, d, ⟨hrow, rfl⟩, ⟨hb, rfl⟩, rfl⟩
      exact ⟨⟨hrow, hb⟩, Nat.add_comm _ _⟩
    · rintro ⟨⟨hrow, hb⟩, rfl⟩
      exact ⟨_, _, ⟨hrow, rfl⟩, ⟨hb, rfl⟩, Nat.add_comm _ _⟩

/-- A row turns into the written digits of a number exactly if it stands for the number, up to
what its length can count to. -/
theorem map_lowerByte_eq_iff {row : List UInt8} {n : Nat} :
    row.map lowerByte = Ascii.bytes (Hex.fixed row.length n) ↔
      (∀ b ∈ row, IsDigit b) ∧ rowValue row = n % 16 ^ row.length := by
  induction row using List.reverseRecOn generalizing n with
  | nil => simp [Hex.fixed, Ascii.bytes, rowValue, Nat.mod_one]
  | append_singleton row b ih =>
    have hlast := lowerByte_eq_digit_iff (b := b) (Nat.mod_lt n (by decide : 0 < 16))
    have hsplit : n % 16 ^ (row.length + 1) = n % 16 + 16 * (n / 16 % 16 ^ row.length) := by
      rw [Nat.pow_succ', Nat.mod_mul]
    have hparts : (row ++ [b]).map lowerByte = Ascii.bytes (Hex.fixed (row ++ [b]).length n) ↔
        row.map lowerByte = Ascii.bytes (Hex.fixed row.length (n / 16))
          ∧ lowerByte b = (Hex.digit (n % 16)).toNat.toUInt8 := by
      rw [List.length_append, List.length_singleton, Hex.fixed, Ascii.bytes, List.map_append,
        List.map_append]
      constructor
      · intro heq
        obtain ⟨hrow, hb⟩ := List.append_inj' heq rfl
        exact ⟨hrow, by simpa using hb⟩
      · rintro ⟨hrow, hb⟩
        rw [hrow, List.map_singleton, hb, Ascii.bytes, List.map_singleton]
    rw [hparts, ih, hlast, rowValue_concat, List.forall_mem_append, List.forall_mem_singleton,
      List.length_append, List.length_singleton, hsplit]
    -- The last digits of two numbers agree, and so does what stands before them.
    constructor
    · rintro ⟨⟨hrow, hvalue⟩, hb, hdigit⟩
      exact ⟨⟨hrow, hb⟩, by omega⟩
    · rintro ⟨⟨hrow, hb⟩, hvalue⟩
      have hlt := digitOf_lt hb
      exact ⟨⟨hrow, by omega⟩, hb, by omega⟩

/-- A row stands for a word exactly if it turns into the digits that the word is written with. -/
theorem isRow_iff {row : List UInt8} {word : UInt64} :
    IsRow row word ↔ row.map lowerByte = Ascii.bytes (Hex.fixed fieldDigits word.toNat) := by
  have hword : word.toNat % 16 ^ fieldDigits = word.toNat := Nat.mod_eq_of_lt word.toNat_lt
  constructor
  · rintro ⟨hlength, hdigits, hvalue⟩
    rw [← hlength] at hword ⊢
    exact map_lowerByte_eq_iff.mpr ⟨hdigits, by rw [hvalue, hword]⟩
  · intro heq
    have hlength : row.length = fieldDigits := by
      have hlengths := congrArg List.length heq
      rwa [List.length_map, Ascii.length_bytes, Hex.length_fixed] at hlengths
    rw [← hlength] at heq hword
    obtain ⟨hdigits, hvalue⟩ := map_lowerByte_eq_iff.mp heq
    exact ⟨hlength, hdigits, by rw [hvalue, hword]⟩

/-! ## §3 The parts of a token -/

/-- A field is read exactly from its mark and a row of digits, and the word loses nothing. -/
theorem readField_eq_ok_iff {bytes rest : List UInt8} {word : UInt64} :
    readField bytes = .ok (word, rest) ↔
      ∃ row, bytes = fieldMark ++ row ++ rest ∧ IsRow row word := by
  unfold readField
  constructor
  · intro hread
    split at hread
    · cases hread
    · next digits hmark =>
      rw [List.isPrefixOf?_eq_some_iff_append_eq] at hmark
      split at hread
      · cases hread
      · next hlong =>
        split at hread
        · cases hread
        · next n hvalue =>
          cases hread
          obtain ⟨hdigits, hn⟩ := value?_eq_some_iff.mp hvalue
          have hlength : (digits.take fieldDigits).length = fieldDigits := by
            rw [List.length_take]
            omega
          -- Sixteen digits do not count beyond a word.
          have hlt := rowValue_lt hdigits
          rw [hn, hlength] at hlt
          refine ⟨digits.take fieldDigits, ?_, hlength, hdigits, ?_⟩
          · rw [List.append_assoc, List.take_append_drop, hmark]
          · rw [hn]
            exact (UInt64.toNat_ofNat_of_lt' hlt).symm
  · rintro ⟨row, rfl, hlength, hdigits, hvalue⟩
    have hmark : fieldMark.isPrefixOf? (fieldMark ++ row ++ rest) = some (row ++ rest) := by
      rw [List.isPrefixOf?_eq_some_iff_append_eq, List.append_assoc]
    have hlong : ¬(row ++ rest).length < fieldDigits := by
      rw [List.length_append]
      omega
    simp only [hmark, if_neg hlong]
    rw [List.take_left' hlength, List.drop_left' hlength,
      value?_eq_some_iff.mpr ⟨hdigits, hvalue⟩]
    simp

/-- Three rows between the delimiters, each behind its mark. -/
def assemble (registry slot nonce : List UInt8) : List UInt8 :=
  opening ++ (fieldMark ++ registry ++ (fieldMark ++ slot ++ (fieldMark ++ nonce ++ closing)))

theorem encode_eq_assemble (handle : Handle) :
    encode handle = assemble (Ascii.bytes (Hex.fixed fieldDigits handle.registry.toNat))
      (Ascii.bytes (Hex.fixed fieldDigits handle.slot.toNat))
      (Ascii.bytes (Hex.fixed fieldDigits handle.nonce.toNat)) := by
  simp [encode, writeField, assemble]

theorem readFields_eq_ok_iff {body : List UInt8} {handle : Handle} :
    readFields body = .ok handle ↔
      ∃ registry slot nonce,
        body = fieldMark ++ registry ++ (fieldMark ++ slot ++ (fieldMark ++ nonce))
          ∧ IsRow registry handle.registry ∧ IsRow slot handle.slot ∧ IsRow nonce handle.nonce := by
  have hsteps : readFields body = .ok handle ↔
      ∃ second third, readField body = .ok (handle.registry, second)
        ∧ readField second = .ok (handle.slot, third)
        ∧ readField third = .ok (handle.nonce, []) := by
    unfold readFields
    constructor
    · intro hread
      split at hread
      · cases hread
      · next hregistry =>
        split at hread
        · cases hread
        · next hslot =>
          split at hread
          · cases hread
          · next hnonce => cases hread; exact ⟨_, _, hregistry, hslot, hnonce⟩
          · cases hread
    · rintro ⟨second, third, hregistry, hslot, hnonce⟩
      simp only [hregistry, hslot, hnonce]
  simp only [hsteps, readField_eq_ok_iff, List.append_nil]
  constructor
  · rintro ⟨second, third, ⟨registry, rfl, hregistry⟩, ⟨slot, rfl, hslot⟩, ⟨nonce, rfl, hnonce⟩⟩
    exact ⟨registry, slot, nonce, rfl, hregistry, hslot, hnonce⟩
  · rintro ⟨registry, slot, nonce, rfl, hregistry, hslot, hnonce⟩
    exact ⟨_, _, ⟨registry, rfl, hregistry⟩, ⟨slot, rfl, hslot⟩, ⟨nonce, rfl, hnonce⟩⟩

theorem body?_eq_some_iff {bytes body : List UInt8} :
    body? bytes = some body ↔ bytes = opening ++ (body ++ closing) := by
  unfold body?
  split
  · next rest hopening =>
    rw [List.isPrefixOf?_eq_some_iff_append_eq] at hopening
    rw [List.isSuffixOf?_eq_some_iff_append_eq, ← hopening, List.append_cancel_left_eq, eq_comm]
  · next hopening =>
    constructor
    · intro hnone
      cases hnone
    · intro hbytes
      rw [hbytes, List.isPrefixOf?_eq_some_iff_append_eq.mpr rfl] at hopening
      cases hopening

/-- Tokens are assembled from three rows, and each row stands for one word of the handle. -/
theorem parse_eq_ok_iff_rows {bytes : List UInt8} {handle : Handle} :
    parse bytes = .ok handle ↔
      ∃ registry slot nonce, bytes = assemble registry slot nonce
        ∧ IsRow registry handle.registry ∧ IsRow slot handle.slot ∧ IsRow nonce handle.nonce := by
  have hsteps : parse bytes = .ok handle ↔ bytes.length ≤ maxLength
      ∧ ∃ body, body? bytes = some body ∧ readFields body = .ok handle := by
    unfold parse
    split
    · next hlong => simp [Nat.not_le.mpr hlong]
    · next hshort => cases body? bytes <;> simp [Nat.le_of_not_lt hshort]
  simp only [hsteps, body?_eq_some_iff, readFields_eq_ok_iff]
  constructor
  · rintro ⟨-, body, rfl, registry, slot, nonce, rfl, hrows⟩
    exact ⟨registry, slot, nonce, by simp [assemble], hrows⟩
  · rintro ⟨registry, slot, nonce, rfl, hregistry, hslot, hnonce⟩
    refine ⟨?_, _, ?_, registry, slot, nonce, rfl, hregistry, hslot, hnonce⟩
    · simp [assemble, opening, fieldMark, closing, hregistry.length, hslot.length, hnonce.length,
        fieldDigits, maxLength]
    · simp [assemble]

/-! ## §4 Digits by their place -/

/-- Where the three rows of digits begin. -/
def rowStarts : List Nat := [13, 32, 51]

/-- Whether a place of a token holds a digit. -/
def isDigitPlace (place : Nat) : Bool :=
  rowStarts.any fun start => start ≤ place && place < start + fieldDigits

/-- The sixteen bytes from a place on. -/
def rowAt (start : Nat) (bytes : List UInt8) : List UInt8 :=
  (bytes.drop start).take fieldDigits

/-- Bytes with those at the places of digits exchanged; the first byte stands at a given place. -/
def onDigitsFrom (start : Nat) (f : UInt8 → UInt8) (bytes : List UInt8) : List UInt8 :=
  bytes.mapIdx fun place b => if isDigitPlace (place + start) then f b else b

/-- Bytes with `A` to `F` turned into `a` to `f` inside the three rows of digits. -/
def lowerDigits (bytes : List UInt8) : List UInt8 :=
  onDigitsFrom 0 lowerByte bytes

/-- Bytes with a dash at each place of a digit. -/
def blankDigits (bytes : List UInt8) : List UInt8 :=
  onDigitsFrom 0 (fun _ => 45) bytes

/-- What remains of every token when its digits are blank. -/
def skeleton : List UInt8 :=
  Ascii.bytes "<xu_object:0x----------------:0x----------------:0x---------------->".toList

theorem onDigitsFrom_eq_append_iff {start : Nat} {f : UInt8 → UInt8}
    {bytes first second : List UInt8} :
    onDigitsFrom start f bytes = first ++ second ↔
      ∃ first' second', bytes = first' ++ second' ∧ onDigitsFrom start f first' = first
        ∧ onDigitsFrom (start + first.length) f second' = second := by
  unfold onDigitsFrom
  rw [List.mapIdx_eq_append_iff]
  constructor
  · rintro ⟨first', second', rfl, rfl, rfl⟩
    refine ⟨first', second', rfl, rfl, ?_⟩
    simp only [List.length_mapIdx, Nat.add_assoc, Nat.add_comm first'.length]
  · rintro ⟨first', second', rfl, rfl, rfl⟩
    refine ⟨first', second', rfl, rfl, ?_⟩
    simp only [List.length_mapIdx, Nat.add_assoc, Nat.add_comm first'.length]

/-- Between the rows nothing is exchanged. -/
theorem onDigitsFrom_eq_iff_of_fixed {start : Nat} {f : UInt8 → UInt8} {bytes fixed : List UInt8}
    (hfixed : ∀ place < fixed.length, isDigitPlace (place + start) = false) :
    onDigitsFrom start f bytes = fixed ↔ bytes = fixed := by
  have hsame : bytes.length = fixed.length → onDigitsFrom start f bytes = bytes := by
    intro hlength
    refine List.ext_getElem (by simp [onDigitsFrom]) fun place _ hlt => ?_
    simp [onDigitsFrom, hfixed place (hlength ▸ hlt)]
  constructor
  · intro heq
    rw [← heq, hsame (by rw [← heq, onDigitsFrom, List.length_mapIdx])]
  · rintro rfl
    exact hsame rfl

/-- Inside a row every byte is exchanged. -/
theorem onDigitsFrom_eq_iff_of_digits {start : Nat} {f : UInt8 → UInt8} {bytes row : List UInt8}
    (hdigits : ∀ place < row.length, isDigitPlace (place + start) = true) :
    onDigitsFrom start f bytes = row ↔ bytes.map f = row := by
  have hmap : bytes.length = row.length → onDigitsFrom start f bytes = bytes.map f := by
    intro hlength
    refine List.ext_getElem (by simp [onDigitsFrom]) fun place _ hlt => ?_
    rw [List.length_map, hlength] at hlt
    simp [onDigitsFrom, hdigits place hlt]
  constructor <;> rintro rfl
  · exact (hmap (by simp [onDigitsFrom])).symm
  · exact hmap (by simp)

/-- In a field only the row is exchanged. -/
theorem onDigitsFrom_eq_field_iff (start : Nat) {f : UInt8 → UInt8} {bytes row rest : List UInt8}
    (hstart : start + 3 ∈ rowStarts) (hlength : row.length = fieldDigits) :
    onDigitsFrom start f bytes = fieldMark ++ row ++ rest ↔
      ∃ row' rest', bytes = fieldMark ++ row' ++ rest' ∧ row'.map f = row
        ∧ onDigitsFrom (start + 19) f rest' = rest := by
  have hmark : ∀ place < fieldMark.length, isDigitPlace (place + start) = false := by
    revert hstart
    simp only [rowStarts, List.mem_cons, List.not_mem_nil, or_false]
    rintro (h | h | h) <;> obtain rfl := Nat.add_right_cancel h <;> decide
  have hrow : ∀ place < row.length, isDigitPlace (place + (start + 3)) = true := by
    rw [hlength]
    revert hstart
    generalize start + 3 = s
    revert s
    decide
  have hend : start + (fieldMark ++ row).length = start + 19 := by
    simp [fieldMark, hlength, fieldDigits]
  rw [onDigitsFrom_eq_append_iff, hend]
  simp only [onDigitsFrom_eq_append_iff, onDigitsFrom_eq_iff_of_fixed hmark]
  constructor
  · rintro ⟨_, rest', rfl, ⟨_, row', rfl, rfl, hrow'⟩, hrest⟩
    exact ⟨row', rest', rfl, (onDigitsFrom_eq_iff_of_digits hrow).mp hrow', hrest⟩
  · rintro ⟨row', rest', rfl, hrow', hrest⟩
    have hexchanged := (onDigitsFrom_eq_iff_of_digits hrow).mpr hrow'
    exact ⟨_, rest', rfl, ⟨_, row', rfl, rfl, hexchanged⟩, hrest⟩

/-- Exchanging digits by their place is exchanging the three rows. -/
theorem onDigits_eq_assemble_iff {f : UInt8 → UInt8} {bytes registry slot nonce : List UInt8}
    (hregistry : registry.length = fieldDigits) (hslot : slot.length = fieldDigits)
    (hnonce : nonce.length = fieldDigits) :
    onDigitsFrom 0 f bytes = assemble registry slot nonce ↔
      ∃ registry' slot' nonce', bytes = assemble registry' slot' nonce'
        ∧ registry'.map f = registry ∧ slot'.map f = slot ∧ nonce'.map f = nonce := by
  have hopening : ∀ place < opening.length, isDigitPlace (place + 0) = false := by decide
  have hclosing : ∀ place < closing.length, isDigitPlace (place + 67) = false := by decide
  have hstart : 0 + opening.length = 10 := rfl
  unfold assemble
  rw [onDigitsFrom_eq_append_iff, hstart]
  simp only [onDigitsFrom_eq_iff_of_fixed hopening,
    onDigitsFrom_eq_field_iff 10 (by decide) hregistry,
    onDigitsFrom_eq_field_iff 29 (by decide) hslot,
    onDigitsFrom_eq_field_iff 48 (by decide) hnonce,
    onDigitsFrom_eq_iff_of_fixed hclosing]
  constructor
  · rintro ⟨_, _, rfl, rfl, registry', _, rfl, h₁, slot', _, rfl, h₂, nonce', _, rfl, h₃, rfl⟩
    exact ⟨registry', slot', nonce', rfl, h₁, h₂, h₃⟩
  · rintro ⟨registry', slot', nonce', rfl, h₁, h₂, h₃⟩
    exact ⟨_, _, rfl, rfl, registry', _, rfl, h₁, slot', _, rfl, h₂, nonce', _, rfl, h₃, rfl⟩

/-! ## §5 Two descriptions of tokens -/

/-- Bytes are a token of a handle exactly if they are the written token once their digits are in
lower case. -/
theorem parse_eq_ok_iff_lowerDigits {bytes : List UInt8} {handle : Handle} :
    parse bytes = .ok handle ↔ lowerDigits bytes = encode handle := by
  rw [parse_eq_ok_iff_rows, lowerDigits, encode_eq_assemble,
    onDigits_eq_assemble_iff (by simp) (by simp) (by simp)]
  simp only [isRow_iff]

/-- Bytes of the fixed form whose rows of digits stand for the words of a handle. -/
structure Reads (bytes : List UInt8) (handle : Handle) : Prop where
  form : blankDigits bytes = skeleton
  registry : IsRow (rowAt 13 bytes) handle.registry
  slot : IsRow (rowAt 32 bytes) handle.slot
  nonce : IsRow (rowAt 51 bytes) handle.nonce

theorem rowAt_append {start : Nat} {front row rest : List UInt8} (hfront : front.length = start)
    (hrow : row.length = fieldDigits) : rowAt start (front ++ (row ++ rest)) = row := by
  rw [rowAt, List.drop_left' hfront, List.take_left' hrow]

theorem rowAt_assemble {registry slot nonce : List UInt8}
    (hregistry : registry.length = fieldDigits) (hslot : slot.length = fieldDigits)
    (hnonce : nonce.length = fieldDigits) :
    rowAt 13 (assemble registry slot nonce) = registry
      ∧ rowAt 32 (assemble registry slot nonce) = slot
      ∧ rowAt 51 (assemble registry slot nonce) = nonce := by
  have hmark : fieldMark.length = 3 := rfl
  have hopening : opening.length = 10 := rfl
  have hdigits : fieldDigits = 16 := rfl
  have hfirst : assemble registry slot nonce = (opening ++ fieldMark)
      ++ (registry ++ (fieldMark ++ slot ++ (fieldMark ++ nonce ++ closing))) := by simp [assemble]
  have hsecond : assemble registry slot nonce = (opening ++ fieldMark ++ registry ++ fieldMark)
      ++ (slot ++ (fieldMark ++ nonce ++ closing)) := by simp [assemble]
  have hthird : assemble registry slot nonce
      = (opening ++ fieldMark ++ registry ++ fieldMark ++ slot ++ fieldMark)
        ++ (nonce ++ closing) := by simp [assemble]
  refine ⟨?_, ?_, ?_⟩
  · rw [hfirst, rowAt_append (by simp only [List.length_append]; omega) hregistry]
  · rw [hsecond, rowAt_append (by simp only [List.length_append]; omega) hslot]
  · rw [hthird, rowAt_append (by simp only [List.length_append]; omega) hnonce]

/-- Bytes have the fixed form exactly if they are assembled from three rows. -/
theorem blankDigits_eq_skeleton_iff {bytes : List UInt8} :
    blankDigits bytes = skeleton ↔ ∃ registry slot nonce,
      bytes = assemble registry slot nonce ∧ registry.length = fieldDigits
        ∧ slot.length = fieldDigits ∧ nonce.length = fieldDigits := by
  have hskeleton : skeleton = assemble (List.replicate fieldDigits 45)
      (List.replicate fieldDigits 45) (List.replicate fieldDigits 45) := by decide
  rw [blankDigits, hskeleton, onDigits_eq_assemble_iff (by simp) (by simp) (by simp)]
  simp [List.map_const']

/-- Bytes are a token of a handle exactly if they have the form and stand for its words. -/
theorem parse_eq_ok_iff_reads {bytes : List UInt8} {handle : Handle} :
    parse bytes = .ok handle ↔ Reads bytes handle := by
  rw [parse_eq_ok_iff_rows]
  constructor
  · rintro ⟨registry, slot, nonce, rfl, hregistry, hslot, hnonce⟩
    obtain ⟨h₁, h₂, h₃⟩ := rowAt_assemble hregistry.length hslot.length hnonce.length
    exact ⟨blankDigits_eq_skeleton_iff.mpr
        ⟨registry, slot, nonce, rfl, hregistry.length, hslot.length, hnonce.length⟩,
      h₁.symm ▸ hregistry, h₂.symm ▸ hslot, h₃.symm ▸ hnonce⟩
  · rintro ⟨hform, hregistry, hslot, hnonce⟩
    obtain ⟨registry, slot, nonce, rfl, hr, hs, hn⟩ := blankDigits_eq_skeleton_iff.mp hform
    obtain ⟨h₁, h₂, h₃⟩ := rowAt_assemble hr hs hn
    exact ⟨registry, slot, nonce, rfl, h₁ ▸ hregistry, h₂ ▸ hslot, h₃ ▸ hnonce⟩

example : parse (Ascii.bytes
      "<xu_object:0x00000000DEADBEEF:0x0000000000000002:0x0000000000000003>".toList)
    = .ok ⟨0xdeadbeef, 2, 3⟩ := by decide

/-- A row of sixteen digits stands for some word. -/
theorem exists_isRow_iff {row : List UInt8} :
    (∃ word, IsRow row word) ↔ row.length = fieldDigits ∧ ∀ b ∈ row, IsDigit b := by
  constructor
  · rintro ⟨word, hrow⟩
    exact ⟨hrow.length, hrow.digits⟩
  · rintro ⟨hlength, hdigits⟩
    have hlt := rowValue_lt hdigits
    rw [hlength] at hlt
    exact ⟨(rowValue row).toUInt64, hlength, hdigits, (UInt64.toNat_ofNat_of_lt' hlt).symm⟩

/-- The bytes that are a token of anything: they have the form, and digits where it is blank. -/
theorem exists_parse_eq_ok_iff {bytes : List UInt8} :
    (∃ handle, parse bytes = .ok handle) ↔
      blankDigits bytes = skeleton ∧ ∀ start ∈ rowStarts, ∀ b ∈ rowAt start bytes, IsDigit b := by
  constructor
  · rintro ⟨handle, hparse⟩
    obtain ⟨hform, hregistry, hslot, hnonce⟩ := parse_eq_ok_iff_reads.mp hparse
    simp only [rowStarts, List.forall_mem_cons]
    exact ⟨hform, hregistry.digits, hslot.digits, hnonce.digits, List.forall_mem_nil _⟩
  · rintro ⟨hform, hdigits⟩
    simp only [rowStarts, List.forall_mem_cons] at hdigits
    obtain ⟨hregistry, hslot, hnonce, -⟩ := hdigits
    obtain ⟨r, s, n, hbytes, hr, hs, hn⟩ := blankDigits_eq_skeleton_iff.mp hform
    obtain ⟨h₁, h₂, h₃⟩ := rowAt_assemble hr hs hn
    rw [← hbytes] at h₁ h₂ h₃
    obtain ⟨registry, hregistry⟩ := exists_isRow_iff.mpr ⟨h₁ ▸ hr, hregistry⟩
    obtain ⟨slot, hslot⟩ := exists_isRow_iff.mpr ⟨h₂ ▸ hs, hslot⟩
    obtain ⟨nonce, hnonce⟩ := exists_isRow_iff.mpr ⟨h₃ ▸ hn, hnonce⟩
    exact ⟨⟨registry, slot, nonce⟩, parse_eq_ok_iff_reads.mpr ⟨hform, hregistry, hslot, hnonce⟩⟩

/-! ## §6 Tokens of one handle -/

/-- Bytes that differ at most in the case of digits. -/
structure DifferInCase (first second : List UInt8) : Prop where
  length : first.length = second.length
  bytes : ∀ place x y, first[place]? = some x → second[place]? = some y →
    x = y ∨ isDigitPlace place = true ∧ SameLetter x y

theorem lowerDigits_eq_lowerDigits_iff {first second : List UInt8} :
    lowerDigits first = lowerDigits second ↔ DifferInCase first second := by
  -- At one place the bytes agree in lower case, or they agree, as the place says.
  have hplace : ∀ place x y,
      (if isDigitPlace (place + 0) then lowerByte x else x)
          = (if isDigitPlace (place + 0) then lowerByte y else y)
        ↔ x = y ∨ isDigitPlace place = true ∧ SameLetter x y := by
    intro place x y
    cases isDigitPlace place <;> simp [lowerByte_eq_lowerByte_iff]
  unfold lowerDigits onDigitsFrom
  constructor
  · intro heq
    have hlength : first.length = second.length := by simpa using congrArg List.length heq
    refine ⟨hlength, fun place x y hx hy => ?_⟩
    have hbytes := congrArg (·[place]?) heq
    simp only [List.getElem?_mapIdx, hx, hy, Option.map_some, Option.some.injEq] at hbytes
    exact (hplace place x y).mp hbytes
  · rintro ⟨hlength, hbytes⟩
    refine List.ext_getElem (by simpa using hlength) fun place hfirst hsecond => ?_
    rw [List.length_mapIdx] at hfirst hsecond
    rw [List.getElem_mapIdx, List.getElem_mapIdx]
    exact (hplace place _ _).mpr
      (hbytes place _ _ (List.getElem?_eq_getElem hfirst) (List.getElem?_eq_getElem hsecond))

/-- Two byte strings are tokens of one handle exactly if one is a token and the other differs from
it at most in the case of digits. -/
theorem parse_eq_parse_iff {first second : List UInt8} :
    (∃ handle, parse first = .ok handle ∧ parse second = .ok handle) ↔
      (∃ handle, parse first = .ok handle) ∧ DifferInCase first second := by
  simp only [parse_eq_ok_iff_lowerDigits, ← lowerDigits_eq_lowerDigits_iff]
  constructor
  · rintro ⟨handle, hfirst, hsecond⟩
    exact ⟨⟨handle, hfirst⟩, hfirst.trans hsecond.symm⟩
  · rintro ⟨⟨handle, hfirst⟩, hsame⟩
    exact ⟨handle, hfirst, hsame ▸ hfirst⟩

theorem encode_injective : Function.Injective encode := by
  intro first second heq
  have hparse := parse_encode first
  rw [heq, parse_encode] at hparse
  exact (Except.ok.inj hparse).symm

/-- The grammar of tokens.  Reading inverts writing, written tokens have 68 bytes and differ for
different handles; bytes are read as a handle exactly if they are its token up to the case of
digits, and then each row of digits stands for one word; bytes of any other form are refused. -/
theorem grammar :
    (∀ bytes handle, parse bytes = .ok handle ↔
      bytes.length = 68 ∧ lowerDigits bytes = encode handle)
    ∧ (∀ handle, parse (encode handle) = .ok handle ∧ (encode handle).length = 68
      ∧ (encode handle).length ≤ maxLength)
    ∧ Function.Injective encode
    ∧ (∀ bytes handle, parse bytes = .ok handle ↔ Reads bytes handle)
    ∧ (∀ bytes, (∃ handle, parse bytes = .ok handle) ↔ bytes.length = 68
      ∧ blankDigits bytes = skeleton ∧ ∀ start ∈ rowStarts, ∀ b ∈ rowAt start bytes, IsDigit b)
    ∧ ∀ first second, (∃ handle, parse first = .ok handle ∧ parse second = .ok handle) ↔
      (∃ handle, parse first = .ok handle) ∧ DifferInCase first second := by
  have hlength : ∀ bytes handle, parse bytes = .ok handle → bytes.length = 68 := by
    intro bytes handle hparse
    have hlengths := congrArg List.length (parse_eq_ok_iff_lowerDigits.mp hparse)
    rwa [lowerDigits, onDigitsFrom, List.length_mapIdx, length_encode] at hlengths
  refine ⟨fun bytes handle => ?_, fun handle => ?_, encode_injective,
    fun bytes handle => parse_eq_ok_iff_reads, fun bytes => ?_, fun first second =>
    parse_eq_parse_iff⟩
  · rw [parse_eq_ok_iff_lowerDigits, iff_and_self, ← parse_eq_ok_iff_lowerDigits]
    exact hlength bytes handle
  · exact ⟨parse_encode handle, length_encode handle, by rw [length_encode]; decide⟩
  · rw [← exists_parse_eq_ok_iff, iff_and_self]
    rintro ⟨handle, hparse⟩
    exact hlength bytes handle hparse

end Ferry.Token
