import Mathlib.Data.List.Basic
import Ferry.Message

/-!
# Messages are unambiguous

The message of an exception made from a status says two things at once: the code, if the kind does
not say it already, and the text.  The text is arbitrary and may look like a code in brackets
itself.  A reader can still tell the two apart: a code's name holds no closing bracket, so the
first closing bracket of a tagged message ends the tag, and what follows is the text with one
space in front, or nothing at all for the empty text.

Main statement: for one kind, messages that carry a tag agree exactly if code and text do, messages
for one code agree exactly if the texts do, only the empty text under a native code gives the empty
message, and a message is its tag, its text, and a space if both are there
(`unambiguous_of_kind`).

## Sections

1. Rows split at the first mark
2. Names of codes
3. What a message reads
4. The two parts of a message
-/

namespace Ferry

/-! ## §1 Rows split at the first mark -/

/-- A row is split in one way only by the first occurrence of a mark. -/
theorem append_mark_inj {α : Type*} {mark : α} {front₁ front₂ rest₁ rest₂ : List α}
    (hfront₁ : mark ∉ front₁) (hfront₂ : mark ∉ front₂) :
    front₁ ++ mark :: rest₁ = front₂ ++ mark :: rest₂ ↔ front₁ = front₂ ∧ rest₁ = rest₂ := by
  constructor
  · intro heq
    induction front₁ generalizing front₂ with
    | nil =>
      cases front₂ with
      | nil => exact ⟨rfl, (List.cons.inj heq).2⟩
      | cons first others =>
        exact absurd (List.mem_cons.mpr (Or.inl (List.cons.inj heq).1)) hfront₂
    | cons first others ih =>
      cases front₂ with
      | nil => exact absurd (List.mem_cons.mpr (Or.inl (List.cons.inj heq).1.symm)) hfront₁
      | cons first' others' =>
        obtain ⟨rfl, hothers⟩ := List.cons.inj heq
        obtain ⟨rfl, hrest⟩ := ih (mt (List.mem_cons_of_mem first) hfront₁)
          (mt (List.mem_cons_of_mem first) hfront₂) hothers
        exact ⟨rfl, hrest⟩
  · rintro ⟨rfl, rfl⟩
    rfl

/-! ## §2 Names of codes -/

namespace Code

theorem name_injective : Function.Injective name := by
  intro code code' hname
  have hread := congrArg ofName? hname
  rwa [ofName?_name, ofName?_name, Option.some.injEq] at hread

/-- A name is written with capital letters and underscores. -/
theorem name_letters (code : Code) : ∀ c ∈ code.name.toList, c.isUpper = true ∨ c = '_' := by
  have hletters : code.name.toList.all (fun c => c.isUpper || c == '_') = true := by
    cases code <;> decide +kernel
  intro c hc
  simpa using List.all_eq_true.mp hletters c hc

theorem bracket_notMem_name (code : Code) : ']' ∉ code.name.toList := fun hmem => by
  simpa using code.name_letters _ hmem

theorem space_notMem_name (code : Code) : ' ' ∉ code.name.toList := fun hmem => by
  simpa using code.name_letters _ hmem

end Code

/-! ## §3 What a message reads -/

namespace Message

/-- The text as it stands behind a tag: with a space in front, unless it is empty. -/
def spaced (text : String) : String :=
  if text = "" then "" else " " ++ text

theorem spaced_injective : Function.Injective spaced := by
  intro text text' heq
  unfold spaced at heq
  split at heq <;> split at heq <;> rename_i htext htext'
  · rw [htext, htext']
  · exact absurd (congrArg String.toList heq) (by simp)
  · exact absurd (congrArg String.toList heq) (by simp)
  · simpa [← String.toList_inj] using heq

theorem tag_of_not_native {code : Code} {kind : Kind} (foreign : kind.nativeCode? ≠ some code) :
    tag code kind = "[" ++ code.name ++ "]" :=
  if_neg foreign

theorem compose_of_native {code : Code} {kind : Kind} (native : kind.nativeCode? = some code)
    (text : String) : compose code kind text = text := by
  rw [compose, tag_of_native native, join_empty_left]

theorem compose_of_not_native {code : Code} {kind : Kind}
    (foreign : kind.nativeCode? ≠ some code) (text : String) :
    compose code kind text = "[" ++ code.name ++ "]" ++ spaced text := by
  have htag : "[" ++ code.name ++ "]" ≠ "" := fun hempty => by
    simpa using congrArg String.toList hempty
  rw [compose, tag_of_not_native foreign, join, if_neg htag, spaced]
  split
  case isTrue => rw [String.append_empty]
  case isFalse => rw [String.append_assoc]

/-- The first closing bracket of a tagged message ends the tag. -/
theorem toList_compose_of_not_native {code : Code} {kind : Kind}
    (foreign : kind.nativeCode? ≠ some code) (text : String) :
    (compose code kind text).toList =
      ('[' :: code.name.toList) ++ ']' :: (spaced text).toList := by
  simp [compose_of_not_native foreign]

/-! ## §4 The two parts of a message -/

theorem compose_eq_compose_iff {code₁ code₂ : Code} {kind : Kind}
    (foreign₁ : kind.nativeCode? ≠ some code₁) (foreign₂ : kind.nativeCode? ≠ some code₂)
    (text₁ text₂ : String) :
    compose code₁ kind text₁ = compose code₂ kind text₂ ↔ code₁ = code₂ ∧ text₁ = text₂ := by
  -- Names hold no closing bracket, so the first one is where the tag ends.
  have hbracket (code : Code) : ']' ∉ '[' :: code.name.toList := by
    simpa using code.bracket_notMem_name
  calc compose code₁ kind text₁ = compose code₂ kind text₂
      ↔ ('[' :: code₁.name.toList) ++ ']' :: (spaced text₁).toList =
          ('[' :: code₂.name.toList) ++ ']' :: (spaced text₂).toList := by
        rw [← String.toList_inj, toList_compose_of_not_native foreign₁,
          toList_compose_of_not_native foreign₂]
    _ ↔ '[' :: code₁.name.toList = '[' :: code₂.name.toList ∧
          (spaced text₁).toList = (spaced text₂).toList :=
        append_mark_inj (hbracket code₁) (hbracket code₂)
    _ ↔ code₁ = code₂ ∧ text₁ = text₂ := by
        rw [List.cons_inj_right, String.toList_inj, String.toList_inj,
          Code.name_injective.eq_iff, spaced_injective.eq_iff]

theorem compose_injective (code : Code) (kind : Kind) : Function.Injective (compose code kind) := by
  intro text text' heq
  by_cases native : kind.nativeCode? = some code
  · rwa [compose_of_native native, compose_of_native native] at heq
  · exact ((compose_eq_compose_iff native native text text').mp heq).2

theorem compose_eq_empty_iff (code : Code) (kind : Kind) (text : String) :
    compose code kind text = "" ↔ kind.nativeCode? = some code ∧ text = "" := by
  by_cases native : kind.nativeCode? = some code
  · rw [compose_of_native native]
    exact (and_iff_right native).symm
  · refine iff_of_false (fun hempty => ?_) (fun hboth => native hboth.1)
    simpa [toList_compose_of_not_native native] using congrArg String.toList hempty

/-- A message ends with its text. -/
theorem exists_compose_eq_append (code : Code) (kind : Kind) (text : String) :
    ∃ before, compose code kind text = before ++ text := by
  by_cases native : kind.nativeCode? = some code
  · exact ⟨"", by rw [compose_of_native native, String.empty_append]⟩
  · rw [compose_of_not_native native, spaced]
    split
    case isTrue hempty => exact ⟨"[" ++ code.name ++ "]", by rw [hempty]⟩
    case isFalse => exact ⟨"[" ++ code.name ++ "]" ++ " ", String.append_assoc.symm⟩

/-- What can be told from the messages made for one kind. -/
structure Unambiguous (kind : Kind) : Prop where
  /-- Tagged messages agree exactly if code and text do, whatever the texts look like. -/
  tagged : ∀ code₁ code₂ text₁ text₂,
    kind.nativeCode? ≠ some code₁ → kind.nativeCode? ≠ some code₂ →
      (compose code₁ kind text₁ = compose code₂ kind text₂ ↔ code₁ = code₂ ∧ text₁ = text₂)
  /-- Messages for one code, native or not, agree exactly if the texts do. -/
  ofCode : ∀ code text₁ text₂,
    compose code kind text₁ = compose code kind text₂ ↔ text₁ = text₂
  /-- Only the empty text under a native code gives the empty message. -/
  empty_iff : ∀ code text,
    compose code kind text = "" ↔ kind.nativeCode? = some code ∧ text = ""
  /-- A message ends with its text. -/
  endsWith : ∀ code text, ∃ before, compose code kind text = before ++ text
  /-- The empty text leaves the tag alone, and no space behind it. -/
  bare : ∀ code,
    compose code kind "" =
        (if kind.nativeCode? = some code then "" else "[" ++ code.name ++ "]") ∧
      ' ' ∉ (compose code kind "").toList
  /-- A text and a tag have one space between them. -/
  separated : ∀ code text, kind.nativeCode? ≠ some code → text ≠ "" →
    compose code kind text = "[" ++ code.name ++ "] " ++ text

theorem unambiguous_of_kind (kind : Kind) : Unambiguous kind where
  tagged _ _ text₁ text₂ foreign₁ foreign₂ :=
    compose_eq_compose_iff foreign₁ foreign₂ text₁ text₂
  ofCode code _ _ := (compose_injective code kind).eq_iff
  empty_iff code text := compose_eq_empty_iff code kind text
  endsWith code text := exists_compose_eq_append code kind text
  bare code := by
    refine ⟨by rw [compose, join_empty_right, tag], ?_⟩
    by_cases native : kind.nativeCode? = some code
    · simp [compose_of_native native]
    · simpa [toList_compose_of_not_native native, Message.spaced] using code.space_notMem_name
  separated code text foreign hfull := by
    rw [← String.toList_inj, toList_compose_of_not_native foreign, Message.spaced, if_neg hfull]
    simp

/-- A text that looks like a tag is told from a tag: neither code is native to the kind. -/
theorem unambiguous_of_look_alike :
    Kind.value.nativeCode? ≠ some .notFound ∧ Kind.value.nativeCode? ≠ some .aborted ∧
      compose .notFound .value "[ABORTED] x" ≠ compose .aborted .value "[NOT_FOUND] x" := by
  have hnotFound : Kind.value.nativeCode? ≠ some .notFound := by decide
  have haborted : Kind.value.nativeCode? ≠ some .aborted := by decide
  refine ⟨hnotFound, haborted, fun heq => ?_⟩
  have hparts := ((unambiguous_of_kind .value).tagged _ _ _ _ hnotFound haborted).mp heq
  exact absurd hparts.1 (by decide)

/-- Beside a native code the text stands alone, and may read like a tagged one. -/
example : compose .invalidArgument .value "[NOT_FOUND] x" = compose .notFound .value "x" := by
  decide

end Message

end Ferry
