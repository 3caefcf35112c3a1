import Ferry.Proofs.Token.RoundTrip
import Ferry.Text.Escape
import Ferry.Text.Quoted

/-!
# Escaped text reads back

Bytes and characters are escaped one at a time, so escaped text can be read one element at a time.
A reader sees from the text alone where an element ends, and it sees where the row ends, since the
quote behind the row begins no element.  So the row and what follows it can both be told from the
text, whatever the elements are.

Main statements: `ReadsBack.flatMap_append_inj`, with its two instances `Escape.readsBack_byte` and
`Quoted.readsBack_char`; and `Escape.escaping`, how each byte is written.

## Sections

1. Rows that are read one element at a time.
2. Escaped bytes.
3. Shortest numbers.
4. Quoted characters.
-/

namespace Ferry.Text

/-! ## §1 Rows that are read one element at a time -/

/-- A reader finds the element that was written, whatever follows it, and finds none at a mark. -/
structure ReadsBack {α β : Type} (read : List β → Option (α × List β)) (write : α → List β)
    (mark : β) : Prop where
  element : ∀ a rest, read (write a ++ rest) = some (a, rest)
  mark : ∀ rest, read (mark :: rest) = none

section Rows

variable {α β : Type} {read : List β → Option (α × List β)} {write : α → List β} {mark : β}

/-- A row that ends with a mark can be told from the text, and so can what follows the mark. -/
theorem ReadsBack.flatMap_append_inj (hreads : ReadsBack read write mark) {row row' : List α}
    {rest rest' : List β} :
    row.flatMap write ++ mark :: rest = row'.flatMap write ++ mark :: rest' ↔
      row = row' ∧ rest = rest' := by
  constructor
  · intro heq
    induction row generalizing row' with
    | nil =>
      cases row' with
      | nil => exact ⟨rfl, (List.cons.inj heq).2⟩
      | cons a others =>
        -- Nothing is read at the mark, but the other row begins with an element.
        have hread := congrArg read heq
        rw [List.flatMap_cons, List.append_assoc, hreads.element, List.flatMap_nil,
          List.nil_append, hreads.mark] at hread
        cases hread
    | cons a others ih =>
      cases row' with
      | nil =>
        have hread := congrArg read heq
        rw [List.flatMap_cons, List.append_assoc, hreads.element, List.flatMap_nil,
          List.nil_append, hreads.mark] at hread
        cases hread
      | cons a' others' =>
        have hread := congrArg read heq
        rw [List.flatMap_cons, List.append_assoc, hreads.element, List.flatMap_cons,
          List.append_assoc, hreads.element, Option.some.injEq, Prod.mk.injEq] at hread
        obtain ⟨rfl, hothers⟩ := hread
        obtain ⟨rfl, hrest⟩ := ih hothers
        exact ⟨rfl, hrest⟩
  · rintro ⟨rfl, rfl⟩
    rfl

theorem ReadsBack.flatMap_injective (hreads : ReadsBack read write mark) :
    Function.Injective fun row : List α => row.flatMap write := by
  intro row row' heq
  have hmarked := congrArg (· ++ [mark]) heq
  exact (hreads.flatMap_append_inj.mp hmarked).1

end Rows

/-! ## §2 Escaped bytes -/

/-- The element that a letter behind a backslash stands for. -/
def lettered? {α : Type} (letters : List (α × Char)) (letter : Char) : Option α :=
  (letters.find? fun known => known.2 == letter).map Prod.fst

/-- A byte is read as the character of the same number. -/
theorem Ascii.toNat_charOfByte (b : UInt8) : (charOfByte b).toNat = b.toNat := by
  have hlt := b.toNat_lt
  have hvalid : b.toNat.isValidChar := Or.inl (by omega)
  rw [charOfByte, Char.ofNat, dif_pos hvalid]
  rfl

namespace Escape

/-- The bytes that are written as a backslash and a letter, each with its letter: tab, carriage
return, line feed, both quotes and the backslash. -/
def letters : List (UInt8 × Char) :=
  [(9, 't'), (13, 'r'), (10, 'n'), (39, '\x27'), (34, '\x22'), (92, '\\')]

/-- How bytes are written. -/
structure Escaping : Prop where
  /-- Six bytes are written as a backslash and a letter. -/
  lettered : ∀ b letter, (b, letter) ∈ letters → byte b = ['\\', letter]
  /-- Another byte that is printable stands for itself. -/
  plain : ∀ b, (∀ letter, (b, letter) ∉ letters) → 0x20 ≤ b → b ≤ 0x7e →
    ∃ c, byte b = [c] ∧ c.toNat = b.toNat
  /-- Any other byte is written as the two digits of its number. -/
  numbered : ∀ b, (∀ letter, (b, letter) ∉ letters) → (b < 0x20 ∨ 0x7e < b) →
    byte b = ['\\', 'x', Hex.digit (b.toNat / 16), Hex.digit (b.toNat % 16)]

/-- A byte that has no letter is none of the six. -/
theorem ne_of_unlettered {b : UInt8} (hnone : ∀ letter, (b, letter) ∉ letters) :
    b ≠ 9 ∧ b ≠ 13 ∧ b ≠ 10 ∧ b ≠ 39 ∧ b ≠ 34 ∧ b ≠ 92 := by
  have hne : ∀ known ∈ letters, b ≠ known.1 := by
    rintro ⟨other, letter⟩ hknown rfl
    exact hnone letter hknown
  simpa [letters] using hne

theorem byte_of_unlettered {b : UInt8} (hnone : ∀ letter, (b, letter) ∉ letters) :
    byte b = if 32 ≤ b ∧ b ≤ 126 then [Ascii.charOfByte b]
      else '\\' :: 'x' :: Hex.fixed 2 b.toNat := by
  obtain ⟨htab, hreturn, hfeed, hsingle, hdouble, hbackslash⟩ := ne_of_unlettered hnone
  rw [byte, if_neg htab, if_neg hreturn, if_neg hfeed, if_neg hsingle, if_neg hdouble,
    if_neg hbackslash]

theorem escaping : Escaping where
  lettered b letter hknown := by
    have hall : ∀ known ∈ letters, byte known.1 = ['\\', known.2] := by decide
    exact hall (b, letter) hknown
  plain b hnone hlow hhigh :=
    ⟨Ascii.charOfByte b, by rw [byte_of_unlettered hnone, if_pos ⟨hlow, hhigh⟩],
      Ascii.toNat_charOfByte b⟩
  numbered b hnone hrange := by
    have hlt := b.toNat_lt
    have hnot : ¬(32 ≤ b ∧ b ≤ 126) := by
      rintro ⟨hlow, hhigh⟩
      rcases hrange with h | h
      · exact absurd hlow (UInt8.not_le.mpr h)
      · exact absurd hhigh (UInt8.not_le.mpr h)
    have hfirst : b.toNat / 16 % 16 = b.toNat / 16 := Nat.mod_eq_of_lt (by omega)
    rw [byte_of_unlettered hnone, if_neg hnot, Hex.fixed, Hex.fixed, Hex.fixed, hfirst]
    rfl

/-- Reads one byte.  No byte begins with a quote. -/
def readByte? : List Char → Option (UInt8 × List Char)
  | '\\' :: 'x' :: high :: low :: rest =>
    (Hex.value? [high, low]).map fun n => (n.toUInt8, rest)
  | '\\' :: letter :: rest => (lettered? letters letter).map fun b => (b, rest)
  | c :: rest =>
    if c = '\x27' ∨ c = '\x22' ∨ c = '\\' then none else some (c.toNat.toUInt8, rest)
  | [] => none

theorem readByte?_lettered {b : UInt8} {letter : Char} (hknown : (b, letter) ∈ letters)
    (rest : List Char) : readByte? ('\\' :: letter :: rest) = some (b, rest) := by
  have hall : ∀ known ∈ letters, known.2 ≠ 'x' ∧ lettered? letters known.2 = some known.1 := by
    decide
  obtain ⟨hne, hfound⟩ := hall (b, letter) hknown
  rw [readByte?, hfound]
  · rfl
  · intro _ _ _ hx _
    exact hne hx

theorem readByte?_plain {c : Char} (hsingle : c ≠ '\x27') (hdouble : c ≠ '\x22')
    (hbackslash : c ≠ '\\') (rest : List Char) :
    readByte? (c :: rest) = some (c.toNat.toUInt8, rest) := by
  have hnot : ¬(c = '\x27' ∨ c = '\x22' ∨ c = '\\') := by
    simp [hsingle, hdouble, hbackslash]
  rw [readByte?, if_neg hnot]
  · intro _ _ _ hx _
    exact hbackslash hx
  · intro _ _ hx _
    exact hbackslash hx

theorem readByte?_numbered (b : UInt8) (rest : List Char) :
    readByte? ('\\' :: 'x' :: Hex.fixed 2 b.toNat ++ rest) = some (b, rest) := by
  have hvalue : Hex.value? (Hex.fixed 2 b.toNat) = some b.toNat := by
    have hlt : b.toNat < 16 ^ 2 := b.toNat_lt
    rw [Hex.value?, Hex.valueFrom?_fixed, Nat.zero_mul, Nat.zero_add, Nat.mod_eq_of_lt hlt]
  obtain ⟨high, low, hdigits⟩ := List.length_eq_two.mp (Hex.length_fixed 2 b.toNat)
  rw [hdigits] at hvalue ⊢
  show (Hex.value? [high, low]).map _ = _
  rw [hvalue]
  simp

/-- A byte is read from its text, and reading stops at a single quote. -/
theorem readsBack_byte : ReadsBack readByte? byte '\x27' where
  element b rest := by
    by_cases hnone : ∀ letter, (b, letter) ∉ letters
    · rw [byte_of_unlettered hnone]
      split
      · -- A character tells its number, so it is none of those that begin an escape.
        obtain ⟨-, -, -, hsingle, hdouble, hbackslash⟩ := ne_of_unlettered hnone
        have hnumber := Ascii.toNat_charOfByte b
        have hne : ∀ c : Char, b ≠ c.toNat.toUInt8 → Ascii.charOfByte b ≠ c := by
          rintro c hb rfl
          rw [hnumber] at hb
          exact hb (by simp)
        rw [List.singleton_append, readByte?_plain (hne _ hsingle) (hne _ hdouble)
          (hne _ hbackslash), hnumber]
        simp
      · exact readByte?_numbered b rest
    · obtain ⟨letter, hknown⟩ := not_forall_not.mp hnone
      rw [escaping.lettered b letter hknown]
      exact readByte?_lettered hknown rest
  mark _ := rfl

end Escape

/-! ## §3 Shortest numbers -/

namespace Hex

theorem digitChar_eq_digit {n : Nat} (hn : n < 16) : n.digitChar = digit n := by
  have hall : ∀ m : Fin 16, Nat.digitChar m = digit m := by decide
  exact hall ⟨n, hn⟩

/-- The last digit stands behind those of the number without it. -/
theorem shortest_of_le {n : Nat} (hn : 16 ≤ n) :
    shortest n = shortest (n / 16) ++ [digit (n % 16)] := by
  rw [shortest, Nat.toDigits_of_base_le (by decide) hn,
    digitChar_eq_digit (Nat.mod_lt n (by decide))]
  rfl

theorem shortest_of_lt {n : Nat} (hn : n < 16) : shortest n = [digit n] := by
  rw [shortest, Nat.toDigits_of_lt_base hn, digitChar_eq_digit hn]

/-- A number reads back from its digits. -/
theorem value?_shortest (n : Nat) : value? (shortest n) = some n := by
  induction n using Nat.strongRecOn with
  | ind n ih =>
    rcases Nat.lt_or_ge n 16 with hn | hn
    · simp [shortest_of_lt hn, value?, valueFrom?, digitValue?_digit hn]
    · have hlast : n % 16 < 16 := Nat.mod_lt n (by decide)
      have hfront := ih (n / 16) (by omega)
      rw [value?] at hfront
      rw [value?, shortest_of_le hn, valueFrom?_append, hfront]
      simp only [Option.bind_some, valueFrom?, digitValue?_digit hlast, Option.some.injEq]
      omega

theorem brace_notMem_shortest (n : Nat) : '\x7d' ∉ shortest n := by
  -- A brace has no value as a digit.
  have hdigit : ∀ d, d < 16 → '\x7d' ≠ digit d := by
    intro d hd heq
    have hread := digitValue?_digit hd
    rw [← heq] at hread
    cases hread
  induction n using Nat.strongRecOn with
  | ind n ih =>
    rcases Nat.lt_or_ge n 16 with hn | hn
    · rw [shortest_of_lt hn, List.mem_singleton]
      exact hdigit n hn
    · rw [shortest_of_le hn, List.mem_append, List.mem_singleton, not_or]
      exact ⟨ih (n / 16) (by omega), hdigit _ (Nat.mod_lt n (by decide))⟩

end Hex

/-! ## §4 Quoted characters -/

namespace Quoted

/-- The characters that are written as a backslash and a letter, each with its letter. -/
def letters : List (Char × Char) :=
  [('\t', 't'), ('\r', 'r'), ('\n', 'n'), ('\x00', '0'), ('\x22', '\x22'), ('\\', '\\')]

theorem char_of_lettered {c letter : Char} (hknown : (c, letter) ∈ letters) :
    char c = ['\\', letter] := by
  have hall : ∀ known ∈ letters, char known.1 = ['\\', known.2] := by decide
  exact hall (c, letter) hknown

theorem char_of_unlettered {c : Char} (hnone : ∀ letter, (c, letter) ∉ letters) :
    char c = if c.toNat < 32 ∨ c.toNat = 127 then
      ['\\', 'u', '\x7b'] ++ Hex.shortest c.toNat ++ ['\x7d'] else [c] := by
  have hne : ∀ known ∈ letters, c ≠ known.1 := by
    rintro ⟨other, letter⟩ hknown rfl
    exact hnone letter hknown
  simp only [letters, List.forall_mem_cons] at hne
  obtain ⟨htab, hreturn, hfeed, hnull, hdouble, hbackslash, -⟩ := hne
  rw [char, if_neg htab, if_neg hreturn, if_neg hfeed, if_neg hnull, if_neg hdouble,
    if_neg hbackslash]

/-- Reads one character.  No character begins with a double quote. -/
def readChar? : List Char → Option (Char × List Char)
  | '\\' :: 'u' :: '\x7b' :: rest =>
    (Hex.value? (rest.takeWhile (· ≠ '\x7d'))).map fun n =>
      (Char.ofNat n, (rest.dropWhile (· ≠ '\x7d')).drop 1)
  | '\\' :: letter :: rest => (lettered? letters letter).map fun c => (c, rest)
  | c :: rest => if c = '\x22' ∨ c = '\\' then none else some (c, rest)
  | [] => none

theorem readChar?_lettered {c letter : Char} (hknown : (c, letter) ∈ letters) (rest : List Char) :
    readChar? ('\\' :: letter :: rest) = some (c, rest) := by
  have hall : ∀ known ∈ letters, known.2 ≠ 'u' ∧ lettered? letters known.2 = some known.1 := by
    decide
  obtain ⟨hne, hfound⟩ := hall (c, letter) hknown
  rw [readChar?, hfound]
  · rfl
  · intro _ hu _
    exact hne hu

theorem readChar?_plain {c : Char} (hdouble : c ≠ '\x22') (hbackslash : c ≠ '\\')
    (rest : List Char) : readChar? (c :: rest) = some (c, rest) := by
  have hnot : ¬(c = '\x22' ∨ c = '\\') := by
    simp [hdouble, hbackslash]
  rw [readChar?, if_neg hnot]
  · intro _ hx _
    exact hbackslash hx
  · intro _ _ hx _
    exact hbackslash hx

theorem readChar?_numbered (c : Char) (rest : List Char) :
    readChar? (['\\', 'u', '\x7b'] ++ Hex.shortest c.toNat ++ ['\x7d'] ++ rest)
      = some (c, rest) := by
  have hvalue := Hex.value?_shortest c.toNat
  -- The first closing brace ends the digits.
  have hdigits : ∀ digit ∈ Hex.shortest c.toNat, digit ≠ '\x7d' :=
    fun _ hmem heq => Hex.brace_notMem_shortest c.toNat (heq ▸ hmem)
  have htake : (Hex.shortest c.toNat ++ '\x7d' :: rest).takeWhile (· ≠ '\x7d')
      = Hex.shortest c.toNat := by
    rw [List.takeWhile_append_of_pos (by simpa using hdigits)]
    simp
  have hdrop : (Hex.shortest c.toNat ++ '\x7d' :: rest).dropWhile (· ≠ '\x7d')
      = '\x7d' :: rest := by
    rw [List.dropWhile_append_of_pos (by simpa using hdigits)]
    simp
  have hrow : ['\\', 'u', '\x7b'] ++ Hex.shortest c.toNat ++ ['\x7d'] ++ rest
      = '\\' :: 'u' :: '\x7b' :: (Hex.shortest c.toNat ++ '\x7d' :: rest) := by
    simp
  rw [hrow, readChar?, htake, hdrop, hvalue]
  simp

/-- A character is read from its text, and reading stops at a double quote. -/
theorem readsBack_char : ReadsBack readChar? char '\x22' where
  element c rest := by
    by_cases hnone : ∀ letter, (c, letter) ∉ letters
    · rw [char_of_unlettered hnone]
      split
      case isTrue => exact readChar?_numbered c rest
      case isFalse =>
        have hdouble : c ≠ '\x22' := by
          rintro rfl
          exact hnone '\x22' (by decide)
        have hbackslash : c ≠ '\\' := by
          rintro rfl
          exact hnone '\\' (by decide)
        exact readChar?_plain hdouble hbackslash rest
    · obtain ⟨letter, hknown⟩ := not_forall_not.mp hnone
      rw [char_of_lettered hknown]
      exact readChar?_lettered hknown rest
  mark _ := rfl

/-- A quoted row can be told from the text, and so can what follows it. -/
theorem chars_append_inj {row row' rest rest' : List Char} :
    chars row ++ rest = chars row' ++ rest' ↔ row = row' ∧ rest = rest' := by
  rw [chars, chars, List.cons_append, List.cons_append, List.cons_inj_right, List.append_assoc,
    List.append_assoc]
  exact readsBack_char.flatMap_append_inj

end Quoted

end Ferry.Text
