import Ferry.Token
import Mathlib.Algebra.Order.Group.Nat
import Mathlib.Data.List.Basic

/-!
# Tokens read back

The token of a handle reads back as the handle.  The proof goes from the inside to the outside: the
digits of a number read back as its remainder, a field as its word, and three fields between the
delimiters as the handle.

Main statements: `valueFrom?_fixed`, `readField_writeField` and `parse_encode`.

## Sections

1. Digits.
2. Fields.
3. Tokens.
-/

namespace Ferry

/-! ## §1 Digits -/

namespace Text.Hex

/-- Reading goes on where the first digits ended. -/
theorem valueFrom?_append (acc : Nat) (first second : List Char) :
    valueFrom? acc (first ++ second) = (valueFrom? acc first).bind (valueFrom? · second) := by
  induction first generalizing acc with
  | nil => rfl
  | cons c rest ih =>
    simp only [List.cons_append, valueFrom?]
    cases digitValue? c with
    | none => rfl
    | some d => exact ih (16 * acc + d)

/-- The last digits of a number read as its remainder, behind what was read before. -/
theorem valueFrom?_fixed (acc width n : Nat) :
    valueFrom? acc (fixed width n) = some (acc * 16 ^ width + n % 16 ^ width) := by
  induction width generalizing n with
  | zero => simp [fixed, valueFrom?, Nat.mod_one]
  | succ width ih =>
    have hdigit : n % 16 < 16 := Nat.mod_lt n (by decide)
    rw [fixed, valueFrom?_append, ih]
    simp only [Option.bind_some, valueFrom?, digitValue?_digit hdigit, Option.some.injEq]
    -- The remainder is split into its last digit and the digits before.
    have hsplit : n % 16 ^ (width + 1) = n % 16 + 16 * (n / 16 % 16 ^ width) := by
      rw [Nat.pow_succ', Nat.mod_mul]
    rw [hsplit, Nat.pow_succ', Nat.mul_left_comm acc]
    omega

/-- A digit is one of the first characters, so it is read from its byte. -/
theorem charOfByte_digit {n : Nat} (hn : n < 16) :
    Ascii.charOfByte (digit n).toNat.toUInt8 = digit n := by
  -- There are sixteen digits, so all of them are tried.
  have hall : ∀ m : Fin 16, Ascii.charOfByte (digit m).toNat.toUInt8 = digit m := by decide
  exact hall ⟨n, hn⟩

theorem chars_bytes_fixed (width n : Nat) :
    Ascii.chars (Ascii.bytes (fixed width n)) = fixed width n := by
  induction width generalizing n with
  | zero => rfl
  | succ width ih =>
    have hdigit := charOfByte_digit (Nat.mod_lt n (by decide : 0 < 16))
    have hrest := ih (n / 16)
    simp only [Ascii.chars, Ascii.bytes, List.map_map, Function.comp_def] at hrest ⊢
    rw [fixed, List.map_append, hrest, List.map_singleton, hdigit]

end Text.Hex

namespace Token

open Ferry.Text

/-! ## §2 Fields -/

/-- A field reads back as its word, and the bytes after it are left. -/
theorem readField_writeField (word : UInt64) (rest : List UInt8) :
    readField (writeField word ++ rest) = .ok (word, rest) := by
  -- The mark is taken off, and just as many digits as the word was written with.
  have hmark : fieldMark.isPrefixOf? (writeField word ++ rest)
      = some (Ascii.bytes (Hex.fixed fieldDigits word.toNat) ++ rest) := by
    rw [List.isPrefixOf?_eq_some_iff_append_eq, writeField, List.append_assoc]
  have hlength : (Ascii.bytes (Hex.fixed fieldDigits word.toNat)).length = fieldDigits := by
    rw [Ascii.length_bytes, Hex.length_fixed]
  have hlong : ¬(Ascii.bytes (Hex.fixed fieldDigits word.toNat) ++ rest).length < fieldDigits := by
    rw [List.length_append, hlength]
    omega
  -- A word is below the number that its digits can count to, so nothing of it is lost.
  have hvalue : Hex.value? (Hex.fixed fieldDigits word.toNat) = some word.toNat := by
    have hlt : word.toNat < 16 ^ fieldDigits := word.toNat_lt
    rw [Hex.value?, Hex.valueFrom?_fixed, Nat.zero_mul, Nat.zero_add, Nat.mod_eq_of_lt hlt]
  unfold readField
  simp only [hmark, if_neg hlong]
  rw [List.take_left' hlength, List.drop_left' hlength, Hex.chars_bytes_fixed, hvalue]
  simp

/-! ## §3 Tokens -/

theorem readFields_writeFields (handle : Handle) :
    readFields (writeField handle.registry ++ (writeField handle.slot ++ writeField handle.nonce))
      = .ok handle := by
  have hlast : readField (writeField handle.nonce) = .ok (handle.nonce, []) := by
    have hread := readField_writeField handle.nonce []
    rwa [List.append_nil] at hread
  unfold readFields
  rw [readField_writeField]
  simp only [readField_writeField, hlast]

theorem body?_encode (handle : Handle) :
    body? (encode handle) = some
      (writeField handle.registry ++ (writeField handle.slot ++ writeField handle.nonce)) := by
  have hopening : opening.isPrefixOf? (encode handle) = some
      (writeField handle.registry ++ (writeField handle.slot ++ writeField handle.nonce)
        ++ closing) := by
    rw [List.isPrefixOf?_eq_some_iff_append_eq]
    simp [encode]
  unfold body?
  rw [hopening]
  simp only
  rw [List.isSuffixOf?_eq_some_iff_append_eq]

/-- The token of a handle reads back as the handle. -/
@[simp] theorem parse_encode (handle : Handle) : parse (encode handle) = .ok handle := by
  -- A token is not too long to be read.
  have hshort : ¬maxLength < (encode handle).length := by
    rw [length_encode]
    decide
  unfold parse
  rw [if_neg hshort, body?_encode]
  exact readFields_writeFields handle

end Token

end Ferry
