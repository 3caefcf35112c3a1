import Ferry.Pool
import Mathlib.Algebra.Order.Group.Nat
import Mathlib.Data.List.Basic

/-!
# Counting in a pool

What each operation of a pool does to the contents, to the numbers of holders, and to the weight.
A pool is *attended* if every value that is kept has a holder.  Letting go is then the end of a
value exactly if it had one holder.

Main statements: `holders_insert`, `holders_retain`, `holders_release` with their counterparts for
contents and weights, and `attended_insert`, `attended_retain`, `attended_release`,
`attended_edit`.

A pool *grows* into another if values were taken in and let go but none that was there was changed.

## Sections

1. Contents.
2. Numbers of holders.
3. Weights.
4. Attended pools.
5. Pools that grow.
-/

namespace Ferry.Pool

variable {role : Role} {α : Type}

/-! ## §1 Contents -/

theorem cell?_fresh (pool : Pool role α) (value : α) : pool.cell? (pool.insert value).2 = none := by
  simp [cell?, insert]

/-- A cell that is not empty is not beyond the last. -/
theorem index_lt_of_cell? {pool : Pool role α} {ref : Ref role} {cell : Cell α}
    (hcell : pool.cell? ref = some cell) : ref.index < pool.cells.size := by
  obtain ⟨hlt, _⟩ := Array.getElem?_eq_some_iff.mp (getElem?_of_cell? hcell)
  exact hlt

theorem content?_eq_some_iff {pool : Pool role α} {ref : Ref role} {value : α} :
    pool.content? ref = some value ↔ ∃ cell, pool.cell? ref = some cell ∧ cell.content = value :=
  Option.map_eq_some_iff

/-- What is kept has a cell. -/
theorem index_lt_of_content {pool : Pool role α} {ref : Ref role} {value : α}
    (hvalue : pool.content? ref = some value) : ref.index < pool.cells.size := by
  obtain ⟨cell, hcell, _⟩ := content?_eq_some_iff.mp hvalue
  exact index_lt_of_cell? hcell

theorem content?_insert (pool : Pool role α) (value : α) (ref : Ref role) :
    (pool.insert value).1.content? ref
      = if ref = (pool.insert value).2 then some value else pool.content? ref := by
  unfold content?
  rw [cell?_insert]
  split <;> rfl

@[simp] theorem content?_retain (pool : Pool role α) (ref other : Ref role) :
    (pool.retain ref).content? other = pool.content? other := by
  unfold content?
  rw [cell?_retain]
  split
  · rename_i heq
    subst heq
    cases pool.cell? other <;> rfl
  · rfl

theorem content?_edit (pool : Pool role α) (ref other : Ref role) (f : α → α) :
    (pool.edit ref f).content? other
      = if other = ref then (pool.content? ref).map f else pool.content? other := by
  unfold content?
  rw [cell?_edit]
  split
  · cases pool.cell? ref <;> rfl
  · rfl

/-- What is kept after letting go was kept before. -/
theorem content?_of_release {pool : Pool role α} {ref other : Ref role} {value : α}
    (hafter : (pool.release ref).1.content? other = some value) :
    pool.content? other = some value := by
  by_cases hother : other = ref
  · subst hother
    rw [content?, cell?_release_self] at hafter
    cases hcell : pool.cell? other with
    | none => simp [hcell] at hafter
    | some cell =>
      by_cases hlast : cell.holders ≤ 1
      · simp [hcell, hlast] at hafter
      · simpa [hcell, hlast, content?] using hafter
  · rwa [content?, cell?_release_of_ne pool hother] at hafter

/-- A value that is carried away is kept no longer. -/
theorem release_of_snd {pool : Pool role α} {ref : Ref role} {value : α}
    (hgone : (pool.release ref).2 = some value) :
    pool.content? ref = some value ∧ (pool.release ref).1.content? ref = none := by
  rw [release_snd] at hgone
  rw [content?, content?, cell?_release_self]
  cases hcell : pool.cell? ref with
  | none => simp [hcell] at hgone
  | some cell =>
    by_cases hlast : cell.holders ≤ 1
    · simpa [hcell, hlast] using hgone
    · simp [hcell, hlast] at hgone

/-- Letting go carries nothing away if every value that was kept is kept still. -/
theorem content?_release_of_none {pool : Pool role α} {ref : Ref role}
    (hkept : (pool.release ref).2 = none) (other : Ref role) :
    (pool.release ref).1.content? other = pool.content? other := by
  by_cases hother : other = ref
  · subst hother
    rw [release_snd] at hkept
    rw [content?, content?, cell?_release_self]
    cases hcell : pool.cell? other with
    | none => rfl
    | some cell =>
      by_cases hlast : cell.holders ≤ 1
      · simp [hcell, hlast] at hkept
      · simp [hlast]
  · rw [content?, content?, cell?_release_of_ne pool hother]

theorem content?_release_of_ne (pool : Pool role α) {ref other : Ref role} (hne : other ≠ ref) :
    (pool.release ref).1.content? other = pool.content? other := by
  rw [content?, content?, cell?_release_of_ne pool hne]

/-! ## §2 Numbers of holders -/

theorem holders_of_cell? {pool : Pool role α} {ref : Ref role} {cell : Cell α}
    (hcell : pool.cell? ref = some cell) : pool.holders ref = cell.holders := by
  rw [holders, hcell]

/-- Something that has a holder is kept. -/
theorem exists_content_of_holders_pos {pool : Pool role α} {ref : Ref role}
    (hpos : 0 < pool.holders ref) : ∃ value, pool.content? ref = some value := by
  unfold holders at hpos
  cases hcell : pool.cell? ref with
  | none => simp [hcell] at hpos
  | some cell => exact ⟨cell.content, by simp [content?, hcell]⟩

theorem holders_insert (pool : Pool role α) (value : α) (ref : Ref role) :
    (pool.insert value).1.holders ref
      = pool.holders ref + if (pool.insert value).2 = ref then 1 else 0 := by
  unfold holders
  rw [cell?_insert]
  by_cases href : (pool.insert value).2 = ref
  · subst href
    simp [cell?_fresh]
  · rw [if_neg (Ne.symm href), if_neg href]
    rfl

/-- What has a holder may be retained. -/
theorem holders_retain (pool : Pool role α) {ref : Ref role} (hpos : 0 < pool.holders ref)
    (other : Ref role) :
    (pool.retain ref).holders other = pool.holders other + if ref = other then 1 else 0 := by
  obtain ⟨value, hvalue⟩ := exists_content_of_holders_pos hpos
  obtain ⟨cell, hcell, _⟩ := content?_eq_some_iff.mp hvalue
  unfold holders
  rw [cell?_retain]
  by_cases hother : ref = other
  · subst hother
    simp [hcell]
  · rw [if_neg (Ne.symm hother), if_neg hother]
    rfl

theorem le_holders_retain (pool : Pool role α) (ref other : Ref role) :
    pool.holders other ≤ (pool.retain ref).holders other := by
  by_cases hpos : 0 < pool.holders ref
  · rw [holders_retain pool hpos]
    exact Nat.le_add_right _ _
  · -- Retaining nothing changes no cell that has a holder.
    unfold holders
    rw [cell?_retain]
    by_cases hother : other = ref
    · subst hother
      rw [if_pos rfl]
      cases pool.cell? other with
      | none => exact Nat.le_refl _
      | some cell => exact Nat.le_succ _
    · rw [if_neg hother]

theorem holders_edit (pool : Pool role α) (ref other : Ref role) (f : α → α) :
    (pool.edit ref f).holders other = pool.holders other := by
  unfold holders
  rw [cell?_edit]
  by_cases hother : other = ref
  · subst hother
    rw [if_pos rfl]
    cases pool.cell? other <;> rfl
  · rw [if_neg hother]

theorem holders_release (pool : Pool role α) (ref other : Ref role) :
    (pool.release ref).1.holders other = pool.holders other - if ref = other then 1 else 0 := by
  unfold holders
  by_cases hother : ref = other
  · subst hother
    rw [if_pos rfl, cell?_release_self]
    cases hcell : pool.cell? ref with
    | none => rfl
    | some cell =>
      by_cases hlast : cell.holders ≤ 1
      · simp [hlast]
      · simp [hlast]
  · rw [if_neg hother, cell?_release_of_ne pool (Ne.symm hother)]
    rfl

/-- The last holder carries the value away. -/
theorem release_snd_of_last {pool : Pool role α} {ref : Ref role} {value : α}
    (hvalue : pool.content? ref = some value) (hlast : pool.holders ref ≤ 1) :
    (pool.release ref).2 = some value := by
  obtain ⟨cell, hcell, rfl⟩ := content?_eq_some_iff.mp hvalue
  rw [holders_of_cell? hcell] at hlast
  rw [release_snd, hcell, Option.bind_some, if_pos hlast]

/-- If the only holder of a new value lets go, every cell is as it was. -/
theorem cell?_release_insert (pool : Pool role α) (value : α) (ref : Ref role) :
    ((pool.insert value).1.release (pool.insert value).2).1.cell? ref = pool.cell? ref := by
  by_cases href : ref = (pool.insert value).2
  · have hcell := cell?_insert pool value (pool.insert value).2
    rw [if_pos rfl] at hcell
    rw [href, cell?_release_self, hcell, Option.bind_some, if_pos (Nat.le_refl 1), cell?_fresh]
  · rw [cell?_release_of_ne _ href, cell?_insert, if_neg href]

/-- Nothing is carried away if another holder remains. -/
theorem release_snd_of_one_lt {pool : Pool role α} {ref : Ref role} (hmore : 1 < pool.holders ref) :
    (pool.release ref).2 = none := by
  rw [release_snd]
  cases hcell : pool.cell? ref with
  | none => rfl
  | some cell =>
    rw [holders_of_cell? hcell] at hmore
    exact if_neg (Nat.not_le.mpr hmore)

/-! ## §3 Weights -/

theorem weight_insert (w : α → Nat) (pool : Pool role α) (value : α) :
    (pool.insert value).1.weight w = pool.weight w + w value := by
  simp [weight, insert, cellWeight]

@[simp] theorem weight_retain (w : α → Nat) (pool : Pool role α) (ref : Ref role) :
    (pool.retain ref).weight w = pool.weight w :=
  weight_modifyCell w pool ref _ fun _ => rfl

/-- Editing a value changes the weight by the difference. -/
theorem weight_edit (w : α → Nat) (pool : Pool role α) {ref : Ref role} {value : α}
    (hvalue : pool.content? ref = some value) (f : α → α) :
    (pool.edit ref f).weight w + w value = pool.weight w + w (f value) := by
  obtain ⟨cell, hcell, rfl⟩ := content?_eq_some_iff.mp hvalue
  have hplace := getElem?_of_cell? hcell
  have hrow : pool.cells.toList[ref.index]? = some (some cell) := by simpa using hplace
  simp only [weight, edit, modifyCell, Array.toList_modify]
  exact sumOf_modify (cellWeight w) pool.cells.toList _ hrow

/-- A value that is kept contributes to the weight. -/
theorem le_weight {w : α → Nat} {pool : Pool role α} {ref : Ref role} {value : α}
    (hvalue : pool.content? ref = some value) : w value ≤ pool.weight w := by
  obtain ⟨cell, hcell, rfl⟩ := content?_eq_some_iff.mp hvalue
  have hplace := getElem?_of_cell? hcell
  have hmem : some cell ∈ pool.cells.toList := by
    have : pool.cells.toList[ref.index]? = some (some cell) := by simpa using hplace
    exact List.mem_of_getElem? this
  exact le_sumOf (w := cellWeight w) hmem

/-- A positive weight comes from a value that is kept. -/
theorem exists_of_weight_pos {w : α → Nat} {pool : Pool role α} (hpos : 0 < pool.weight w) :
    ∃ ref value, pool.content? ref = some value ∧ 0 < w value := by
  obtain ⟨place, hplace, hplace_pos⟩ := exists_of_sumOf_pos hpos
  obtain ⟨i, hi⟩ := List.mem_iff_getElem?.mp hplace
  cases place with
  | none => cases hplace_pos
  | some cell =>
    have hi' : pool.cells[i]? = some (some cell) := by simpa using hi
    exact ⟨⟨i⟩, cell.content, by simp [content?, cell?, hi'], hplace_pos⟩

/-! ## §4 Attended pools -/

/-- Every value that is kept has a holder. -/
def Attended (pool : Pool role α) : Prop :=
  ∀ ref value, pool.content? ref = some value → 0 < pool.holders ref

theorem attended_empty : Attended ({} : Pool role α) := by
  intro ref value hvalue
  simp [content?, cell?] at hvalue

theorem attended_insert {pool : Pool role α} (hpool : pool.Attended) (value : α) :
    (pool.insert value).1.Attended := by
  intro ref other hother
  rw [content?_insert] at hother
  rw [holders_insert]
  by_cases href : (pool.insert value).2 = ref
  · rw [if_pos href]
    omega
  · rw [if_neg (Ne.symm href)] at hother
    have := hpool ref other hother
    omega

theorem attended_retain {pool : Pool role α} (hpool : pool.Attended) {ref : Ref role}
    (hpos : 0 < pool.holders ref) : (pool.retain ref).Attended := by
  intro other value hvalue
  rw [content?_retain] at hvalue
  rw [holders_retain pool hpos]
  have := hpool other value hvalue
  omega

theorem attended_edit {pool : Pool role α} (hpool : pool.Attended) (ref : Ref role) (f : α → α) :
    (pool.edit ref f).Attended := by
  intro other value hvalue
  rw [content?_edit] at hvalue
  rw [holders_edit]
  by_cases hother : other = ref
  · subst hother
    rw [if_pos rfl, Option.map_eq_some_iff] at hvalue
    obtain ⟨old, hold, _⟩ := hvalue
    exact hpool other old hold
  · rw [if_neg hother] at hvalue
    exact hpool other value hvalue

theorem attended_release {pool : Pool role α} (hpool : pool.Attended) (ref : Ref role) :
    (pool.release ref).1.Attended := by
  intro other value hvalue
  have hbefore := hpool other value (content?_of_release hvalue)
  rw [holders_release]
  by_cases hother : ref = other
  · subst hother
    -- Were the holder the last, the value would be gone.
    rw [content?, cell?_release_self] at hvalue
    rw [if_pos rfl]
    cases hcell : pool.cell? ref with
    | none => simp [hcell] at hvalue
    | some cell =>
      by_cases hlast : cell.holders ≤ 1
      · simp [hcell, hlast] at hvalue
      · rw [holders_of_cell? hcell]
        omega
  · rw [if_neg hother]
    omega

/-! ## §5 Pools that grow -/

/-- What was there before is unchanged, as far as it is kept. -/
structure Grows (pool pool' : Pool role α) : Prop where
  size_le : pool.cells.size ≤ pool'.cells.size
  content : ∀ ref value, ref.index < pool.cells.size → pool'.content? ref = some value →
    pool.content? ref = some value

variable {pool pool' pool'' : Pool role α}

theorem Grows.refl (pool : Pool role α) : Grows pool pool :=
  ⟨Nat.le_refl _, fun _ _ _ hvalue => hvalue⟩

theorem Grows.trans (hfirst : Grows pool pool') (hsecond : Grows pool' pool'') :
    Grows pool pool'' where
  size_le := hfirst.size_le.trans hsecond.size_le
  content ref value hlt hvalue :=
    hfirst.content ref value hlt (hsecond.content ref value (hlt.trans_le hfirst.size_le) hvalue)

theorem grows_insert (pool : Pool role α) (value : α) : Grows pool (pool.insert value).1 where
  size_le := by simp [insert]
  content ref found hlt hfound := by
    have hold : ref ≠ (pool.insert value).2 := by
      rintro rfl
      exact Nat.lt_irrefl _ hlt
    rwa [content?_insert, if_neg hold] at hfound

theorem grows_retain (pool : Pool role α) (ref : Ref role) : Grows pool (pool.retain ref) where
  size_le := by simp [retain, modifyCell]
  content other value _ hvalue := by rwa [content?_retain] at hvalue

theorem grows_release (pool : Pool role α) (ref : Ref role) : Grows pool (pool.release ref).1 where
  size_le := by
    unfold release
    split
    · exact Nat.le_refl _
    · split <;> simp [modifyCell]
  content _ _ _ hvalue := content?_of_release hvalue

/-- What is edited is new, so nothing that was there before is changed. -/
theorem Grows.edit (hgrows : Grows pool pool') {ref : Ref role}
    (hnew : pool.cells.size ≤ ref.index) (f : α → α) : Grows pool (pool'.edit ref f) where
  size_le := hgrows.size_le.trans (by simp [Pool.edit, modifyCell])
  content other value hlt hvalue := by
    have hother : other ≠ ref := by
      rintro rfl
      omega
    rw [content?_edit, if_neg hother] at hvalue
    exact hgrows.content other value hlt hvalue

end Ferry.Pool
