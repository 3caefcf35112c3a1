import Mathlib.Data.List.DropRight
import Ferry.Text.Trim

/-!
# What trimming does

A text is clean if it neither begins nor ends with a blank.  Trimming makes a clean text of any
text, leaves a clean text as it is, and does not see blanks that are added at the ends.

Main statements: `clean_both`, `both_of_clean` and `both_between`.

## Sections

1. Clean texts
2. Blanks at the ends
-/

namespace Ferry.Text.Trim

/-! ## §1 Clean texts -/

/-- A row of characters neither begins nor ends with a blank. -/
structure Clean (text : List Char) : Prop where
  head : ∀ c, text.head? = some c → isBlank c = false
  last : ∀ c, text.getLast? = some c → isBlank c = false

variable {text before behind : List Char}

theorem back_eq_rdropWhile (text : List Char) : back text = text.rdropWhile isBlank := rfl

/-- What is left when the blanks at the ends are gone neither begins nor ends with one. -/
theorem clean_both (text : List Char) : Clean (both text) where
  head c hhead := by
    -- Cutting at the end keeps the first character.
    have hfirst : (front text).head? = some c := by
      obtain ⟨cut, hcut⟩ := List.rdropWhile_prefix isBlank (l := front text)
      have hkept : ((front text).rdropWhile isBlank).head? = some c := hhead
      rw [← hcut, List.head?_append, hkept, Option.some_or]
    have hnot := List.head?_dropWhile_not isBlank text
    rw [show text.dropWhile isBlank = front text from rfl, hfirst] at hnot
    exact hnot
  last c hlast := by
    obtain ⟨hne, hc⟩ := List.mem_getLast?_eq_getLast hlast
    rw [hc]
    exact Bool.eq_false_iff.mpr (List.rdropWhile_last_not isBlank (front text) hne)

theorem front_of_clean (hclean : Clean text) : front text = text := by
  rw [front, List.dropWhile_eq_self_iff]
  intro hlength hblank
  have hhead := hclean.head text[0] (List.head?_eq_getElem? ▸ List.getElem?_eq_getElem hlength)
  rw [hhead] at hblank
  cases hblank

theorem back_of_clean (hclean : Clean text) : back text = text := by
  rw [back_eq_rdropWhile, List.rdropWhile_eq_self_iff]
  intro hne hblank
  rw [hclean.last _ (List.getLast?_eq_some_getLast hne)] at hblank
  cases hblank

/-- A clean text is left as it is. -/
theorem both_of_clean (hclean : Clean text) : both text = text := by
  rw [both, front_of_clean hclean, back_of_clean hclean]

theorem string_of_clean {text : String} (hclean : Clean text.toList) : string text = text := by
  rw [string, both_of_clean hclean, String.ofList_toList]

theorem clean_string (text : String) : Clean (string text).toList := by
  rw [string, String.toList_ofList]
  exact clean_both text.toList

/-! ## §2 Blanks at the ends -/

theorem back_append_blanks (text : List Char) (hbehind : ∀ c ∈ behind, isBlank c = true) :
    back (text ++ behind) = back text := by
  rw [back, List.reverse_append, List.dropWhile_append_of_pos, back]
  exact fun c hc => hbehind c (List.mem_reverse.mp hc)

/-- Blanks that are added at the ends make no difference. -/
theorem both_between (text : List Char) (hbefore : ∀ c ∈ before, isBlank c = true)
    (hbehind : ∀ c ∈ behind, isBlank c = true) :
    both (before ++ text ++ behind) = both text := by
  have hfront : front (before ++ text ++ behind) = front (text ++ behind) := by
    rw [front, List.append_assoc, List.dropWhile_append_of_pos hbefore, front]
  rw [both, hfront, front, List.dropWhile_append]
  split
  case isTrue hall =>
    -- There is nothing but blanks, and nothing is left of them.
    rw [both, front, List.isEmpty_iff.mp hall, List.dropWhile_eq_nil_iff.mpr hbehind]
  case isFalse => exact back_append_blanks _ hbehind

theorem string_between {before behind : String} (text : String)
    (hbefore : ∀ c ∈ before.toList, isBlank c = true)
    (hbehind : ∀ c ∈ behind.toList, isBlank c = true) :
    string (before ++ text ++ behind) = string text := by
  rw [string, String.toList_append, String.toList_append, both_between _ hbefore hbehind, string]

end Ferry.Text.Trim
