/-!
# Totals

What the elements of a row weigh together.

Main statement: exchanging one element changes the total by the difference (`sumOf_set`).
-/

namespace Ferry

variable {α : Type}

/-- The sum of the weights of the elements of a row. -/
def sumOf (w : α → Nat) : List α → Nat
  | [] => 0
  | first :: rest => w first + sumOf w rest

@[simp] theorem sumOf_nil (w : α → Nat) : sumOf w [] = 0 := rfl

@[simp] theorem sumOf_cons (w : α → Nat) (first : α) (rest : List α) :
    sumOf w (first :: rest) = w first + sumOf w rest := rfl

@[simp] theorem sumOf_append (w : α → Nat) (row more : List α) :
    sumOf w (row ++ more) = sumOf w row + sumOf w more := by
  induction row with
  | nil => simp
  | cons first rest ih =>
    simp only [List.cons_append, sumOf_cons, ih]
    omega

/-- Exchanging one element changes the total by the difference. -/
theorem sumOf_set (w : α → Nat) (row : List α) {i : Nat} {old : α} (new : α)
    (present : row[i]? = some old) : sumOf w (row.set i new) + w old = sumOf w row + w new := by
  induction row generalizing i with
  | nil => simp at present
  | cons first rest ih =>
    cases i with
    | zero =>
      simp only [List.getElem?_cons_zero, Option.some.injEq] at present
      subst present
      simp only [List.set_cons_zero, sumOf_cons]
      omega
    | succ i =>
      simp only [List.getElem?_cons_succ] at present
      have step := ih present
      simp only [List.set_cons_succ, sumOf_cons]
      omega

/-- Changing one element changes the total by the difference. -/
theorem sumOf_modify (w : α → Nat) (row : List α) (f : α → α) {i : Nat} {old : α}
    (present : row[i]? = some old) :
    sumOf w (row.modify i f) + w old = sumOf w row + w (f old) := by
  have exchanged : row.modify i f = row.set i (f old) := by
    refine List.ext_getElem? fun place => ?_
    rw [List.getElem?_modify, List.getElem?_set]
    by_cases same : i = place
    · subst same
      obtain ⟨inside, there⟩ := List.getElem?_eq_some_iff.mp present
      simp [inside, there]
    · simp [same]
  rw [exchanged]
  exact sumOf_set w row (f old) present

/-- No element weighs more than all together. -/
theorem le_sumOf {w : α → Nat} {row : List α} {a : α} (present : a ∈ row) :
    w a ≤ sumOf w row := by
  induction row with
  | nil => cases present
  | cons first rest ih =>
    rw [sumOf_cons]
    cases present with
    | head => exact Nat.le_add_right _ _
    | tail _ present => exact Nat.le_add_left_of_le (ih present)

/-- A positive total comes from an element of positive weight. -/
theorem exists_of_sumOf_pos {w : α → Nat} {row : List α} (positive : 0 < sumOf w row) :
    ∃ a ∈ row, 0 < w a := by
  induction row with
  | nil => cases positive
  | cons first rest ih =>
    by_cases heavy : 0 < w first
    · exact ⟨first, List.mem_cons_self, heavy⟩
    · rw [sumOf_cons] at positive
      obtain ⟨a, present, heavy⟩ := ih (by omega)
      exact ⟨a, List.mem_cons_of_mem _ present, heavy⟩

end Ferry
