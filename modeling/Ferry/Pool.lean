import Ferry.Total

/-!
# Pools of counted cells

A pool keeps values that are shared.  Each value sits in a cell of its own together with the number
of its holders; the cell is emptied when the last holder lets go, and its place is never used again.
A reference names a cell, and two references name the same value exactly when they are equal.

The role in the type of a pool keeps references to different sorts of values apart.

Main statements: what each operation does to the content of a cell and to its count
(`cell?_insert`, `cell?_retain_self`, `cell?_release_self`, ...), and that letting go never adds to
what the pool holds (`weight_release`).
-/

namespace Ferry

/-- The sorts of values that are shared. -/
inductive Role where
  | exception
  | item
  | owner
  deriving DecidableEq

/-- Names one cell of the pool of a role. -/
structure Ref (role : Role) where
  /-- The place of the cell. -/
  index : Nat
  deriving DecidableEq, Inhabited

/-- A value and the number of its holders. -/
structure Cell (α : Type) where
  holders : Nat
  content : α
  deriving DecidableEq

/-- Shared values, each with the number of its holders. -/
structure Pool (role : Role) (α : Type) where
  /-- The cells in the order of their making; an emptied cell is `none`. -/
  cells : Array (Option (Cell α)) := #[]
  deriving DecidableEq, Inhabited

namespace Pool

variable {role : Role} {α : Type}

/-- The cell that a reference names, unless it is empty. -/
def cell? (pool : Pool role α) (ref : Ref role) : Option (Cell α) :=
  match pool.cells[ref.index]? with
  | some (some cell) => some cell
  | _ => none

/-- The value that a reference names. -/
def content? (pool : Pool role α) (ref : Ref role) : Option α :=
  (pool.cell? ref).map Cell.content

/-- The number of holders of a value; an emptied cell has none. -/
def holders (pool : Pool role α) (ref : Ref role) : Nat :=
  match pool.cell? ref with
  | some cell => cell.holders
  | none => 0

/-- Takes in a value with one holder. -/
def insert (pool : Pool role α) (value : α) : Pool role α × Ref role :=
  let place := pool.cells.size
  (⟨pool.cells.push (some ⟨1, value⟩)⟩, ⟨place⟩)

/-- Changes one cell, if it is not empty. -/
def modifyCell (pool : Pool role α) (ref : Ref role) (f : Cell α → Cell α) : Pool role α :=
  ⟨pool.cells.modify ref.index (Option.map f)⟩

/-- Adds a holder. -/
def retain (pool : Pool role α) (ref : Ref role) : Pool role α :=
  pool.modifyCell ref fun cell => { cell with holders := cell.holders + 1 }

/-- Changes the value of a cell in place. -/
def edit (pool : Pool role α) (ref : Ref role) (f : α → α) : Pool role α :=
  pool.modifyCell ref fun cell => { cell with content := f cell.content }

/-- Lets one holder go.  The last holder empties the cell and carries the value away. -/
def release (pool : Pool role α) (ref : Ref role) : Pool role α × Option α :=
  match pool.cell? ref with
  | none => (pool, none)
  | some cell =>
    if cell.holders ≤ 1 then (⟨pool.cells.setIfInBounds ref.index none⟩, some cell.content)
    else
      (pool.modifyCell ref fun cell => { cell with holders := cell.holders - 1 }, none)

/-! ## What the operations do to a cell -/

theorem cell?_insert (pool : Pool role α) (value : α) (ref : Ref role) :
    (pool.insert value).1.cell? ref =
      if ref = (pool.insert value).2 then some ⟨1, value⟩ else pool.cell? ref := by
  obtain ⟨index⟩ := ref
  simp only [insert, cell?, Ref.mk.injEq, Array.getElem?_push]
  by_cases last : index = pool.cells.size <;> simp [last]

theorem cell?_modifyCell (pool : Pool role α) (ref other : Ref role) (f : Cell α → Cell α) :
    (pool.modifyCell ref f).cell? other =
      if other = ref then (pool.cell? ref).map f else pool.cell? other := by
  obtain ⟨index⟩ := ref
  obtain ⟨place⟩ := other
  simp only [modifyCell, cell?, Ref.mk.injEq, Array.getElem?_modify]
  by_cases same : index = place
  · subst same
    rcases pool.cells[index]? with _ | _ | cell <;> simp
  · simp [same, Ne.symm same]

theorem cell?_retain (pool : Pool role α) (ref other : Ref role) :
    (pool.retain ref).cell? other =
      if other = ref then (pool.cell? ref).map fun cell => { cell with holders := cell.holders + 1 }
      else pool.cell? other :=
  cell?_modifyCell pool ref other _

theorem cell?_edit (pool : Pool role α) (ref other : Ref role) (f : α → α) :
    (pool.edit ref f).cell? other =
      if other = ref then (pool.cell? ref).map fun cell => { cell with content := f cell.content }
      else pool.cell? other :=
  cell?_modifyCell pool ref other _

theorem cell?_release_of_ne (pool : Pool role α) {ref other : Ref role} (ne : other ≠ ref) :
    (pool.release ref).1.cell? other = pool.cell? other := by
  unfold release
  split
  · rfl
  · split
    · obtain ⟨index⟩ := ref
      obtain ⟨place⟩ := other
      have differ : index ≠ place := fun same => ne (by rw [same])
      simp [cell?, differ]
    · simp [cell?_modifyCell, ne]

theorem cell?_release_self (pool : Pool role α) (ref : Ref role) :
    (pool.release ref).1.cell? ref =
      (pool.cell? ref).bind fun cell =>
        if cell.holders ≤ 1 then none else some { cell with holders := cell.holders - 1 } := by
  unfold release
  split
  · rename_i h
    simp [h]
  · rename_i cell h
    split
    · rename_i last
      simp only [h, Option.bind_some, last, if_true]
      simp only [cell?, Array.getElem?_setIfInBounds]
      split <;> simp_all
    · rename_i more
      simp [cell?_modifyCell, h, more]

/-- What a departing holder carries away is the content of a cell with at most one holder. -/
theorem release_snd (pool : Pool role α) (ref : Ref role) :
    (pool.release ref).2 =
      (pool.cell? ref).bind fun cell => if cell.holders ≤ 1 then some cell.content else none := by
  unfold release
  split
  · rename_i h
    simp [h]
  · rename_i cell h
    split <;> simp_all

/-! ## The weight of a pool -/

/-- The weight of a cell under a weight of contents; an empty cell weighs nothing. -/
def cellWeight (w : α → Nat) : Option (Cell α) → Nat
  | none => 0
  | some cell => w cell.content

/-- The sum of the weights of all contents. -/
def weight (w : α → Nat) (pool : Pool role α) : Nat :=
  sumOf (cellWeight w) pool.cells.toList

/-- A cell that is looked up is in its place. -/
theorem getElem?_of_cell? {pool : Pool role α} {ref : Ref role} {cell : Cell α}
    (present : pool.cell? ref = some cell) : pool.cells[ref.index]? = some (some cell) := by
  unfold cell? at present
  split at present
  · cases present
    assumption
  · cases present

/-- Changing a cell without changing what its content weighs keeps the weight of the pool. -/
theorem weight_modifyCell (w : α → Nat) (pool : Pool role α) (ref : Ref role)
    (f : Cell α → Cell α) (same : ∀ cell, w (f cell).content = w cell.content) :
    (pool.modifyCell ref f).weight w = pool.weight w := by
  simp only [weight, modifyCell, Array.toList_modify]
  generalize pool.cells.toList = row
  induction row generalizing ref with
  | nil => simp
  | cons first rest ih =>
    obtain ⟨index⟩ := ref
    cases index with
    | zero => cases first <;> simp [cellWeight, same]
    | succ index => simpa using ih ⟨index⟩

/-- Letting go takes the weight of what is carried away from the pool, and nothing else. -/
theorem weight_release (w : α → Nat) (pool : Pool role α) (ref : Ref role) :
    (pool.release ref).1.weight w + (((pool.release ref).2.map w).getD 0) = pool.weight w := by
  unfold release
  split
  · simp
  · rename_i cell present
    split
    · have place := getElem?_of_cell? present
      have inList : pool.cells.toList[ref.index]? = some (some cell) := by simpa using place
      have step := sumOf_set (cellWeight w) pool.cells.toList none inList
      simpa [weight, cellWeight] using step
    · have same : (pool.modifyCell ref fun cell =>
          { cell with holders := cell.holders - 1 }).weight w = pool.weight w :=
        weight_modifyCell w pool ref _ fun _ => rfl
      simp [same]

end Pool

end Ferry
