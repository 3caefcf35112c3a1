/-!
# Text as UTF-8 bytes

Strings become payload bytes in UTF-8, and listings of keys are sorted by those bytes.
-/

namespace Ferry.Text.Utf8

/-- The bytes of a string. -/
def bytes (text : String) : List UInt8 :=
  text.toList.flatMap String.utf8EncodeChar

/-- Whether one row of bytes comes before another or equals it, compared byte by byte; a row
comes before its extensions. -/
def bytesLe : List UInt8 → List UInt8 → Bool
  | [], _ => true
  | _ :: _, [] => false
  | a :: as, b :: bs => a < b || (a == b && bytesLe as bs)

/-- Whether one string comes before another or equals it in the order of their bytes. -/
def le (a b : String) : Bool :=
  bytesLe (bytes a) (bytes b)

/-- The strings in the order of their bytes. -/
def sort (texts : List String) : List String :=
  texts.mergeSort le

theorem bytesLe_trans {a b c : List UInt8} (ab : bytesLe a b = true) (bc : bytesLe b c = true) :
    bytesLe a c = true := by
  induction a generalizing b c with
  | nil => rfl
  | cons x a ih =>
    cases b with
    | nil => simp [bytesLe] at ab
    | cons y b =>
      cases c with
      | nil => simp [bytesLe] at bc
      | cons z c =>
        simp only [bytesLe, Bool.or_eq_true, Bool.and_eq_true, decide_eq_true_eq,
          beq_iff_eq] at ab bc ⊢
        rcases ab with xy | ⟨rfl, ab⟩
        · rcases bc with yz | ⟨rfl, _⟩
          · exact Or.inl (UInt8.lt_trans xy yz)
          · exact Or.inl xy
        · rcases bc with yz | ⟨rfl, bc⟩
          · exact Or.inl yz
          · exact Or.inr ⟨rfl, ih ab bc⟩

theorem bytesLe_total (a b : List UInt8) : (bytesLe a b || bytesLe b a) = true := by
  induction a generalizing b with
  | nil => simp [bytesLe]
  | cons x a ih =>
    cases b with
    | nil => simp [bytesLe]
    | cons y b =>
      have step := ih b
      simp only [bytesLe, Bool.or_eq_true, Bool.and_eq_true, decide_eq_true_eq,
        beq_iff_eq] at step ⊢
      simp only [UInt8.lt_iff_toNat_lt, ← UInt8.toNat_inj]
      rcases Nat.lt_trichotomy x.toNat y.toNat with xy | same | yx
      · exact Or.inl (Or.inl xy)
      · exact step.imp (fun h => Or.inr ⟨same, h⟩) (fun h => Or.inr ⟨same.symm, h⟩)
      · exact Or.inr (Or.inl yx)

theorem sort_perm (texts : List String) : (sort texts).Perm texts :=
  List.mergeSort_perm texts le

end Ferry.Text.Utf8
