import Ferry.Text.Utf8
import Mathlib.Data.List.Nodup

/-!
# The order of UTF-8 bytes

Strings that have the same bytes are the same, so the order of their bytes is a linear order of
strings, and sorting strings that differ puts each strictly before the next.

Main statements: `bytes_injective` and `sort_increasing`.
-/

namespace Ferry.Text.Utf8

/-- The bytes of a string are those in which it is kept. -/
theorem toByteArray_bytes (text : String) : (bytes text).toByteArray = text.toByteArray := by
  conv_rhs => rw [← String.ofList_toList (s := text), String.toByteArray_ofList]
  rfl

theorem bytes_injective : Function.Injective bytes := by
  intro first second hbytes
  rw [← String.toByteArray_inj, ← toByteArray_bytes, ← toByteArray_bytes, hbytes]

/-- Rows of bytes are compared like words in a dictionary. -/
theorem bytesLe_iff (a b : List UInt8) : bytesLe a b = true ↔ a < b ∨ a = b := by
  induction a generalizing b with
  | nil =>
    cases b with
    | nil => simp [bytesLe]
    | cons y b => simp [bytesLe]
  | cons x a ih =>
    cases b with
    | nil => simp [bytesLe]
    | cons y b =>
      simp only [bytesLe, Bool.or_eq_true, Bool.and_eq_true, decide_eq_true_eq, beq_iff_eq, ih,
        List.cons_lt_cons_iff, List.cons.injEq]
      tauto

theorem le_trans (a b c : String) (hab : le a b = true) (hbc : le b c = true) : le a c = true :=
  bytesLe_trans hab hbc

theorem le_total (a b : String) : (le a b || le b a) = true :=
  bytesLe_total (bytes a) (bytes b)

theorem mem_sort_iff {texts : List String} {text : String} : text ∈ sort texts ↔ text ∈ texts :=
  (sort_perm texts).mem_iff

/-- Different strings are sorted strictly. -/
theorem sort_increasing {texts : List String} (hnodup : texts.Nodup) :
    (sort texts).Pairwise fun a b => bytes a < bytes b := by
  -- Neighbours are in order and differ, and different strings have different bytes.
  have hsorted : (sort texts).Pairwise fun a b => le a b = true :=
    List.pairwise_mergeSort le_trans le_total texts
  have hdistinct : (sort texts).Pairwise fun a b => a ≠ b :=
    (sort_perm texts).nodup_iff.mpr hnodup
  refine (hsorted.and hdistinct).imp fun {a b} ⟨hle, hne⟩ => ?_
  rcases (bytesLe_iff _ _).mp hle with hlt | heq
  · exact hlt
  · exact absurd (bytes_injective heq) hne

end Ferry.Text.Utf8
