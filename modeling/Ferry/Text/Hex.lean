/-!
# Hexadecimal digits

Numbers are written with lower-case digits, either in a fixed width or in the fewest digits, and
read with digits of either case.

Main statement: a digit reads back as its value (`digitValue?_digit`).
-/

namespace Ferry.Text.Hex

/-- The lower-case digit of a value below sixteen. -/
def digit (n : Nat) : Char :=
  if n < 10 then Char.ofNat (48 + n) else Char.ofNat (87 + n)

/-- The value of a digit of either case. -/
def digitValue? (c : Char) : Option Nat :=
  if '0' ≤ c ∧ c ≤ '9' then some (c.toNat - 48)
  else if 'a' ≤ c ∧ c ≤ 'f' then some (c.toNat - 87)
  else if 'A' ≤ c ∧ c ≤ 'F' then some (c.toNat - 55)
  else none

/-- The last `width` digits of a number. -/
def fixed : (width : Nat) → Nat → List Char
  | 0, _ => []
  | width + 1, n => fixed width (n / 16) ++ [digit (n % 16)]

/-- The digits of a number without leading zeros; zero has one digit. -/
def shortest (n : Nat) : List Char :=
  Nat.toDigits 16 n

/-- The value of digits read after a number `acc`; `none` at the first character that is not a
digit. -/
def valueFrom? (acc : Nat) : List Char → Option Nat
  | [] => some acc
  | c :: rest =>
    match digitValue? c with
    | some d => valueFrom? (16 * acc + d) rest
    | none => none

/-- The value of a row of digits. -/
def value? (digits : List Char) : Option Nat :=
  valueFrom? 0 digits

@[simp] theorem length_fixed (width n : Nat) : (fixed width n).length = width := by
  induction width generalizing n with
  | zero => rfl
  | succ width ih => simp [fixed, ih]

theorem digitValue?_digit {n : Nat} (small : n < 16) : digitValue? (digit n) = some n := by
  have all : ∀ m : Fin 16, digitValue? (digit m) = some m.val := by decide
  exact all ⟨n, small⟩

theorem digitValue?_lt {c : Char} {n : Nat} (read : digitValue? c = some n) : n < 16 := by
  unfold digitValue? at read
  have le {a b : Char} (h : a ≤ b) : a.toNat ≤ b.toNat := by
    simpa [Char.le_def, UInt32.le_iff_toNat_le] using h
  split at read
  · rename_i h
    have := le h.2
    have : '9'.toNat = 57 := rfl
    cases read; omega
  · split at read
    · rename_i h
      have := le h.2
      have : 'f'.toNat = 102 := rfl
      cases read; omega
    · split at read
      · rename_i h
        have := le h.2
        have : 'F'.toNat = 70 := rfl
        cases read; omega
      · cases read

end Ferry.Text.Hex
