import Ferry.KeyedList
import Mathlib.Algebra.BigOperators.Group.List.Basic
import Mathlib.Algebra.Order.Group.Multiset
import Mathlib.Tactic.Abel

/-!
# Sums over keyed lists

What the values of a keyed list come to together.  Removing a key takes its value off, and binding a
key puts the new value in the place of the old.

Main statements: `total_erase` and `total_insert`.
-/

namespace Ferry.KeyedList

variable {α M : Type} [AddCommMonoid M] (f : α → M)

/-- The sum over all values. -/
def total (m : KeyedList α) : M :=
  (m.values.map f).sum

/-- What the value of a key comes to; an absent key comes to nothing. -/
def part (m : KeyedList α) (key : String) : M :=
  ((m.find? key).map f).getD 0

theorem part_of_find? {m : KeyedList α} {key : String} {value : α}
    (hfind : m.find? key = some value) : m.part f key = f value := by
  simp [part, hfind]

theorem part_of_find?_none {m : KeyedList α} {key : String} (hfind : m.find? key = none) :
    m.part f key = 0 := by
  simp [part, hfind]

/-- Removing a key takes its value off. -/
theorem total_erase (m : KeyedList α) (key : String) :
    m.total f = m.part f key + (m.erase key).total f := by
  obtain ⟨entries⟩ := m
  simp only [total, part, values, erase, find?]
  induction entries with
  | nil => simp [eraseEntry]
  | cons entry rest ih =>
    obtain ⟨k, v⟩ := entry
    by_cases hkey : key = k
    -- The key is in front, and nothing behind it is touched.
    · subst hkey
      simp [eraseEntry]
    · have hdiffer : (key == k) = false := by simpa using hkey
      simp only [eraseEntry, List.lookup_cons, hdiffer, Bool.false_eq_true, if_false, List.map_cons,
        List.sum_cons]
      rw [ih]
      abel

/-- Binding a key puts the new value in the place of the old. -/
theorem total_insert (m : KeyedList α) (key : String) (value : α) :
    (m.insert key value).total f = f value + (m.erase key).total f := by
  obtain ⟨entries⟩ := m
  simp only [total, values, insert, erase]
  induction entries with
  | nil => simp [insertEntry, eraseEntry]
  | cons entry rest ih =>
    obtain ⟨k, v⟩ := entry
    by_cases hkey : key = k
    · subst hkey
      simp [insertEntry, eraseEntry]
    · have hdiffer : (key == k) = false := by simpa using hkey
      simp only [insertEntry, eraseEntry, hdiffer, Bool.false_eq_true, if_false, List.map_cons,
        List.sum_cons]
      rw [ih]
      abel

/-- The value of a key is a part of the sum. -/
theorem le_total {β : Type} (f : α → Multiset β) {m : KeyedList α} {key : String} {value : α}
    (hfind : m.find? key = some value) : f value ≤ m.total f := by
  rw [total_erase f m key, part_of_find? f hfind]
  exact Multiset.le_add_right _ _

/-- What is in the sum is in a part of it. -/
theorem mem_total {β : Type} (f : α → Multiset β) {m : KeyedList α} {x : β} :
    x ∈ m.total f ↔ ∃ key value, (key, value) ∈ m.entries ∧ x ∈ f value := by
  obtain ⟨entries⟩ := m
  simp only [total, values]
  induction entries with
  | nil => simp
  | cons entry rest ih =>
    obtain ⟨k, v⟩ := entry
    rw [List.map_cons, List.map_cons, List.sum_cons, Multiset.mem_add, ih]
    constructor
    · rintro (hfirst | ⟨key, value, hmem, hx⟩)
      · exact ⟨k, v, List.mem_cons_self, hfirst⟩
      · exact ⟨key, value, List.mem_cons_of_mem _ hmem, hx⟩
    · rintro ⟨key, value, hmem, hx⟩
      rcases List.mem_cons.mp hmem with heq | hmem
      · cases heq
        exact Or.inl hx
      · exact Or.inr ⟨key, value, hmem, hx⟩

end Ferry.KeyedList
