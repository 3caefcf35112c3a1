import Ferry.Holdings.Token
import Ferry.Proofs.Exception.Chains
import Ferry.Proofs.Ownership.Counts

/-!
# What leaves exceptions as they are

Making an exception, sharing one and letting one go edit none, so graphs grow by them; and raising a
new exception from another edits the new one only.  The same holds of what the holdings do with
payloads and objects.

Main statements: `raiseFrom_new`, what raising a new exception comes to; `grows_releaseAll` and
`grows_unpackException`.

## Sections

1. Sharing and letting go.
2. Raising a new exception.
3. Holdings.
-/

namespace Ferry

namespace ExceptionGraph

variable {g : ExceptionGraph}

/-! ## §1 Sharing and letting go -/

theorem grows_dropAll (g : ExceptionGraph) (pending : List ExceptionRef) :
    g.Grows (dropAll g pending) := by
  induction g, pending using dropAll.induct with
  | case1 g =>
    rw [dropAll_nil]
    exact Pool.Grows.refl g
  | case2 g e rest released ih =>
    rw [dropAll_cons]
    exact (Pool.grows_release g e).trans ih

/-- What is kept after letting go was kept before. -/
theorem content?_of_dropAll {x : ExceptionRef} {pending : List ExceptionRef} {node : Node}
    (hafter : (dropAll g pending).content? x = some node) : g.content? x = some node := by
  induction g, pending using dropAll.induct with
  | case1 g => rwa [dropAll_nil] at hafter
  | case2 g first rest released ih =>
    rw [dropAll_cons] at hafter
    exact Pool.content?_of_release (ih hafter)

theorem holders_dropAll_le (g : ExceptionGraph) (pending : List ExceptionRef) (x : ExceptionRef) :
    (dropAll g pending).holders x ≤ g.holders x := by
  induction g, pending using dropAll.induct with
  | case1 g => rw [dropAll_nil]
  | case2 g first rest released ih =>
    rw [dropAll_cons]
    refine ih.trans ?_
    rw [Pool.holders_release]
    exact Nat.sub_le _ _

/-- A share that is not the last one goes alone. -/
theorem drop_of_shared {e : ExceptionRef} (hshared : 1 < g.holders e) :
    drop g e = (g.release e).1 := by
  rw [drop, dropAll_cons, Pool.release_snd_of_one_lt hshared]
  exact dropAll_nil _

/-! ## §2 Raising a new exception -/

/-- An exception that is made has one holder and a place behind all others, which stay as they
are. -/
theorem create_new (g : ExceptionGraph) (kind : Kind) (message : String) :
    ∃ made e, create g kind message = (made, e) ∧ made.cell? e = some ⟨1, { kind, message }⟩ ∧
      g.cells.size ≤ e.index ∧ g.Grows made ∧
      ∀ other, 0 < g.holders other → e ≠ other ∧ made.holders other = g.holders other := by
  refine ⟨(g.insert { kind, message }).1, (g.insert { kind, message }).2, rfl, ?_, Nat.le_refl _,
    Pool.grows_insert g _, fun other hother => ?_⟩
  · rw [Pool.cell?_insert, if_pos rfl]
  · have hne : (g.insert { kind, message }).2 ≠ other := by
      rintro rfl
      simp [Pool.holders, Pool.cell?_fresh g { kind, message }] at hother
    exact ⟨hne, by rw [Pool.holders_insert, if_neg hne, Nat.add_zero]⟩

/-- Both links of a new exception. -/
def raisedNode (kind : Kind) (message : String) (cause : ExceptionRef) : Node :=
  { kind, message, cause := some cause, context := some cause }

/-- Setting a link that is not set yet edits the exception and lets nothing go. -/
theorem setCause_new {e cause : ExceptionRef} {node : Node} (hcell : g.cell? e = some ⟨1, node⟩)
    (hnone : node.cause = none) :
    setCause g e cause = (g.edit e fun node => { node with cause := some cause }, e) := by
  have howned : own g e = (g, e) := by simp [own, hcell]
  simp [setCause, howned, Pool.content?, hcell, hnone]

theorem setContext_new {e context : ExceptionRef} {node : Node}
    (hcell : g.cell? e = some ⟨1, node⟩) (hnone : node.context = none) :
    setContext g e context = (g.edit e fun node => { node with context := some context }, e) := by
  have howned : own g e = (g, e) := by simp [own, hcell]
  simp [setContext, howned, Pool.content?, hcell, hnone]

/-- A new exception that is raised from another keeps its reference, is linked to the other twice,
and nothing else is changed. -/
theorem raiseFrom_new {e cause : ExceptionRef} {kind : Kind} {message : String}
    (hcell : g.cell? e = some ⟨1, { kind, message }⟩) (hne : e ≠ cause) :
    ∃ raised, raiseFrom g e cause = (raised, e) ∧
      raised.cell? e = some ⟨1, raisedNode kind message cause⟩ ∧
      (∀ x, x ≠ e → raised.cell? x = (g.retain cause).cell? x) ∧
      ∀ before : ExceptionGraph, before.Grows g → before.cells.size ≤ e.index →
        before.Grows raised := by
  have hretained : (g.retain cause).cell? e = some ⟨1, { kind, message }⟩ := by
    rw [Pool.cell?_retain, if_neg hne, hcell]
  have hcaused : setCause (g.retain cause) e cause = _ := setCause_new hretained rfl
  have hcell' : ((g.retain cause).edit e fun node => { node with cause := some cause }).cell? e
      = some ⟨1, { kind, message, cause := some cause }⟩ := by
    rw [Pool.cell?_edit, if_pos rfl, hretained]
    rfl
  have hraised : raiseFrom g e cause
      = (((g.retain cause).edit e fun node => { node with cause := some cause }).edit e
          fun node => { node with context := some cause }, e) := by
    simp only [raiseFrom, hcaused]
    exact setContext_new hcell' rfl
  refine ⟨_, hraised, ?_, fun x hx => ?_, fun before hgrows hnew => ?_⟩
  · rw [Pool.cell?_edit, if_pos rfl, hcell']
    rfl
  · rw [Pool.cell?_edit, if_neg hx, Pool.cell?_edit, if_neg hx]
  · have hshared := hgrows.trans (Pool.grows_retain g cause)
    exact Pool.Grows.edit (Pool.Grows.edit hshared hnew _) hnew _

end ExceptionGraph

/-! ## §3 Holdings -/

namespace Holdings

open ExceptionGraph

theorem dropException_eq (h : Holdings) (e : ExceptionRef) :
    h.dropException e = h.withExceptions (ExceptionGraph.drop h.exceptions e) := by
  rw [dropException, releaseAll_cons, settle, List.nil_append, releaseAll_nil]
  rfl

theorem grows_settle (h : Holdings) (share : Share) :
    h.exceptions.Grows (h.settle share).1.exceptions := by
  cases share using Share.cases with
  | owner ref =>
    have hsame : (h.settle (.owner ref)).1.exceptions = h.exceptions :=
      (letGo_owner_pools h ref).2.2
    rw [hsame]
    exact Pool.Grows.refl _
  | item ref => exact Pool.Grows.refl _
  | exception e => exact grows_dropAll h.exceptions [e]

theorem grows_releaseAll (h : Holdings) (pending : List Share) :
    h.exceptions.Grows (h.releaseAll pending).exceptions := by
  induction h, pending using releaseAll.induct with
  | case1 h =>
    rw [releaseAll_nil]
    exact Pool.Grows.refl _
  | case2 h share rest settled ih =>
    rw [releaseAll_cons]
    exact (grows_settle h share).trans ih

theorem grows_lend (h : Holdings) (result : Except Fault Object) :
    h.exceptions.Grows (h.lend result).1.exceptions := by
  cases result with
  | error fault => exact Pool.Grows.refl _
  | ok object =>
    cases object with
    | item ref => exact Pool.Grows.refl _
    | exception e => exact Pool.grows_retain h.exceptions e

theorem exceptions_redeem (h : Holdings) (o : OwnerRef) :
    (h.redeem o).1.exceptions = h.exceptions := by
  simp only [redeem]
  split
  · next r handle _ =>
    unfold fetch
    generalize (registry { h with owners := (h.owners.release o).1 } r).fetch handle = fetched
    cases fetched <;> rfl
  · rfl

theorem grows_consume (h : Holdings) (r : Nat) (payload : Payload) :
    h.exceptions.Grows (h.consume r payload).1.exceptions := by
  unfold consume
  split
  · exact grows_releaseAll h payload.shares
  · next handle o _ =>
    split
    · rw [exceptions_redeem]
      exact Pool.Grows.refl _
    · exact (grows_lend h _).trans (grows_releaseAll _ payload.shares)

/-- Taking an exception out of a payload edits none. -/
theorem grows_unpackException (h : Holdings) (r : Nat) (payload : Payload) :
    h.exceptions.Grows (h.unpackException r payload).1.exceptions := by
  have hconsume := grows_consume h r payload
  unfold unpackException
  split
  · next heq => rwa [heq] at hconsume
  · next heq =>
    rw [heq] at hconsume
    exact hconsume.trans (grows_releaseAll _ _)
  · next heq => rwa [heq] at hconsume

end Holdings

end Ferry
