import Ferry.KeyedList
import Mathlib.Data.List.Nodup

/-!
# The order of keyed lists

Where the bindings of a keyed list stand.  A key that is bound has a place, which the first binding
of the key takes.  Writing the key exchanges the value in that place and removing it closes the gap;
nothing else moves.  A key that is not bound is appended when it is written.

Main statements: `Place.insert`, `Place.erase` and `entries_insert_of_unbound`; and
`mem_entries_iff`, that look-ups tell all bindings of a map that binds no key twice.

## Sections

1. Places.
2. What changes keep.
-/

namespace Ferry.KeyedList

variable {α : Type} {m : KeyedList α} {key : String} {value : α}
  {before after : List (String × α)}

/-! ## §1 Places -/

/-- The first binding of a key stands between two rows of bindings. -/
structure Place (m : KeyedList α) (key : String) (value : α) (before after : List (String × α)) :
    Prop where
  entries_eq : m.entries = before ++ (key, value) :: after
  first : key ∉ before.map Prod.fst

/-- A key that is bound has a place. -/
theorem exists_place (hfind : m.find? key = some value) :
    ∃ before after, m.Place key value before after := by
  obtain ⟨entries⟩ := m
  simp only [find?] at hfind
  induction entries with
  | nil => cases hfind
  | cons entry rest ih =>
    obtain ⟨k, v⟩ := entry
    by_cases hkey : key = k
    · subst hkey
      rw [List.lookup_cons_self] at hfind
      cases hfind
      exact ⟨[], rest, rfl, List.not_mem_nil⟩
    · have hdiffer : (key == k) = false := by simpa using hkey
      simp only [List.lookup_cons, hdiffer] at hfind
      obtain ⟨before, after, hentries, hfirst⟩ := ih hfind
      refine ⟨(k, v) :: before, after, ?_, ?_⟩
      · exact congrArg (List.cons (k, v)) hentries
      · rw [List.map_cons, List.mem_cons, not_or]
        exact ⟨hkey, hfirst⟩

/-- Writing a key exchanges the value in its place. -/
theorem Place.insert (hplace : m.Place key value before after) (value' : α) :
    (m.insert key value').Place key value' before after := by
  obtain ⟨entries⟩ := m
  obtain ⟨hentries, hfirst⟩ := hplace
  refine ⟨?_, hfirst⟩
  simp only at hentries
  subst hentries
  simp only [KeyedList.insert]
  induction before with
  | nil => simp [insertEntry]
  | cons entry rest ih =>
    obtain ⟨k, v⟩ := entry
    rw [List.map_cons, List.mem_cons, not_or] at hfirst
    have hdiffer : (key == k) = false := by simpa using hfirst.1
    simp [insertEntry, hdiffer, ih hfirst.2]

/-- Removing a key closes the gap. -/
theorem Place.erase (hplace : m.Place key value before after) :
    (m.erase key).entries = before ++ after := by
  obtain ⟨entries⟩ := m
  obtain ⟨hentries, hfirst⟩ := hplace
  simp only at hentries
  subst hentries
  simp only [KeyedList.erase]
  induction before with
  | nil => simp [eraseEntry]
  | cons entry rest ih =>
    obtain ⟨k, v⟩ := entry
    rw [List.map_cons, List.mem_cons, not_or] at hfirst
    have hdiffer : (key == k) = false := by simpa using hfirst.1
    simp [eraseEntry, hdiffer, ih hfirst.2]

theorem not_mem_keys_of_unbound (hfind : m.find? key = none) : key ∉ m.keys := by
  intro hmem
  have hsome := (find?_isSome_iff m key).mpr hmem
  rw [hfind] at hsome
  cases hsome

/-- A key that is not bound is appended. -/
theorem entries_insert_of_unbound (hfind : m.find? key = none) (value : α) :
    (m.insert key value).entries = m.entries ++ [(key, value)] := by
  have hkey := not_mem_keys_of_unbound hfind
  obtain ⟨entries⟩ := m
  simp only [KeyedList.insert, keys] at hkey ⊢
  induction entries with
  | nil => rfl
  | cons entry rest ih =>
    obtain ⟨k, v⟩ := entry
    rw [List.map_cons, List.mem_cons, not_or] at hkey
    have hdiffer : (key == k) = false := by simpa using hkey.1
    have hrest : KeyedList.find? ⟨rest⟩ key = none := by
      simpa [find?, List.lookup_cons, hdiffer] using hfind
    simp [insertEntry, hdiffer, ih hrest hkey.2]

/-- Removing a key that is not bound changes nothing. -/
theorem erase_of_unbound (hfind : m.find? key = none) : m.erase key = m := by
  have hkey := not_mem_keys_of_unbound hfind
  obtain ⟨entries⟩ := m
  simp only [KeyedList.erase, keys, mk.injEq] at hkey ⊢
  induction entries with
  | nil => rfl
  | cons entry rest ih =>
    obtain ⟨k, v⟩ := entry
    rw [List.map_cons, List.mem_cons, not_or] at hkey
    have hdiffer : (key == k) = false := by simpa using hkey.1
    have hrest : KeyedList.find? ⟨rest⟩ key = none := by
      simpa [find?, List.lookup_cons, hdiffer] using hfind
    simp [eraseEntry, hdiffer, ih hrest hkey.2]

theorem keys_insert_of_bound (hfind : m.find? key = some value) (value' : α) :
    (m.insert key value').keys = m.keys := by
  obtain ⟨before, after, hplace⟩ := exists_place hfind
  unfold keys
  rw [(hplace.insert value').entries_eq, hplace.entries_eq, List.map_append, List.map_append]
  rfl

theorem keys_insert_of_unbound (hfind : m.find? key = none) (value : α) :
    (m.insert key value).keys = m.keys ++ [key] := by
  unfold keys
  rw [entries_insert_of_unbound hfind, List.map_append]
  rfl

theorem keys_erase (m : KeyedList α) (key : String) : (m.erase key).keys = m.keys.erase key := by
  cases hfind : m.find? key with
  | none => rw [erase_of_unbound hfind, List.erase_of_not_mem (not_mem_keys_of_unbound hfind)]
  | some value =>
    obtain ⟨before, after, hplace⟩ := exists_place hfind
    unfold keys
    rw [hplace.erase, hplace.entries_eq, List.map_append, List.map_append, List.map_cons,
      List.erase_append_right _ hplace.first, List.erase_cons_head]

/-! ## §2 What changes keep -/

theorem mem_entries_of_find? (hfind : m.find? key = some value) : (key, value) ∈ m.entries := by
  obtain ⟨before, after, hplace⟩ := exists_place hfind
  rw [hplace.entries_eq]
  exact List.mem_append_right _ List.mem_cons_self

theorem mem_entries_insert {entry : String × α} (hmem : entry ∈ (m.insert key value).entries) :
    entry = (key, value) ∨ entry ∈ m.entries := by
  cases hfind : m.find? key with
  | none =>
    rw [entries_insert_of_unbound hfind, List.mem_append, List.mem_singleton] at hmem
    exact hmem.symm
  | some old =>
    obtain ⟨before, after, hplace⟩ := exists_place hfind
    rw [(hplace.insert value).entries_eq, List.mem_append, List.mem_cons] at hmem
    rw [hplace.entries_eq, List.mem_append, List.mem_cons]
    rcases hmem with hbefore | heq | hafter
    · exact Or.inr (Or.inl hbefore)
    · exact Or.inl heq
    · exact Or.inr (Or.inr (Or.inr hafter))

theorem erase_entries_sublist (m : KeyedList α) (key : String) :
    (m.erase key).entries.Sublist m.entries := by
  cases hfind : m.find? key with
  | none => rw [erase_of_unbound hfind]
  | some value =>
    obtain ⟨before, after, hplace⟩ := exists_place hfind
    rw [hplace.erase, hplace.entries_eq]
    exact (List.sublist_cons_self _ _).append_left before

theorem mem_entries_erase {entry : String × α} (hmem : entry ∈ (m.erase key).entries) :
    entry ∈ m.entries :=
  (erase_entries_sublist m key).subset hmem

/-- Writing a key binds no key twice. -/
theorem keys_nodup_insert (hnodup : m.keys.Nodup) (key : String) (value : α) :
    (m.insert key value).keys.Nodup := by
  cases hfind : m.find? key with
  | none =>
    rw [keys_insert_of_unbound hfind]
    refine List.nodup_append'.mpr ⟨hnodup, List.nodup_singleton key, ?_⟩
    exact List.disjoint_singleton.mpr (not_mem_keys_of_unbound hfind)
  | some old =>
    rw [keys_insert_of_bound hfind]
    exact hnodup

theorem keys_nodup_erase (hnodup : m.keys.Nodup) (key : String) : (m.erase key).keys.Nodup := by
  rw [keys_erase]
  exact hnodup.erase key

/-- A map that binds no key twice is told by its look-ups. -/
theorem mem_entries_iff (hnodup : m.keys.Nodup) :
    (key, value) ∈ m.entries ↔ m.find? key = some value := by
  refine ⟨fun hmem => ?_, mem_entries_of_find?⟩
  obtain ⟨found, hfind⟩ := Option.isSome_iff_exists.mp
    ((find?_isSome_iff m key).mpr (List.mem_map_of_mem hmem))
  have hsame : (key, found) = (key, value) :=
    List.inj_on_of_nodup_map hnodup (mem_entries_of_find? hfind) hmem rfl
  exact hfind.trans (congrArg (fun entry => some entry.2) hsame)

theorem find?_map {β : Type} (m : KeyedList α) (f : α → β) (key : String) :
    (m.map f).find? key = (m.find? key).map f := by
  obtain ⟨entries⟩ := m
  simp only [find?, map]
  induction entries with
  | nil => rfl
  | cons entry rest ih =>
    rw [List.map_cons, List.lookup_cons, List.lookup_cons, ih]
    cases key == entry.1 <;> rfl

theorem keys_map {β : Type} (m : KeyedList α) (f : α → β) : (m.map f).keys = m.keys :=
  List.map_map

/-- Bindings of new keys that are written one after the other come behind the others. -/
theorem foldl_insert (m : KeyedList α) (entries : List (String × α))
    (hnodup : ((m.entries ++ entries).map Prod.fst).Nodup) :
    entries.foldl (fun m entry => m.insert entry.1 entry.2) m = ⟨m.entries ++ entries⟩ := by
  induction entries generalizing m with
  | nil => rw [List.foldl_nil, List.append_nil]
  | cons entry rest ih =>
    obtain ⟨key, value⟩ := entry
    have hunbound : m.find? key = none := by
      refine Option.not_isSome_iff_eq_none.mp fun hsome => ?_
      have hkey : key ∈ m.entries.map Prod.fst := (find?_isSome_iff m key).mp hsome
      rw [List.map_append, List.map_cons] at hnodup
      exact (List.nodup_append'.mp hnodup).2.2 hkey List.mem_cons_self
    have hinsert := entries_insert_of_unbound hunbound value
    have hrow : m.entries ++ (key, value) :: rest = (m.insert key value).entries ++ rest := by
      rw [hinsert, List.append_assoc]
      rfl
    rw [hrow] at hnodup ⊢
    exact ih (m.insert key value) hnodup

/-- Writing the bindings of a map one after the other makes the map anew. -/
theorem foldl_insert_entries (hnodup : m.keys.Nodup) :
    m.entries.foldl (fun made entry => made.insert entry.1 entry.2) {} = m :=
  foldl_insert {} m.entries hnodup

/-- A key that was bound once is not bound when it is removed. -/
theorem find?_erase_self (hnodup : m.keys.Nodup) (key : String) :
    (m.erase key).find? key = none := by
  refine Option.not_isSome_iff_eq_none.mp fun hsome => ?_
  have hkey := (find?_isSome_iff _ key).mp hsome
  rw [keys_erase] at hkey
  exact hnodup.not_mem_erase hkey

end Ferry.KeyedList
