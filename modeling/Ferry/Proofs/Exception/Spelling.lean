import Ferry.Proofs.Exception.Growth
import Mathlib.Data.Option.Basic
import Mathlib.Logic.Relator

/-!
# What a chain spells

An exception spells a list of kinds and messages if its chain has just these, outermost first, and
if each exception of the chain is linked to the next by its cause and by its context and has no
frames.  The list says all there is to say: exceptions that spell the same list are alike, whatever
graphs they are in.

Main statements: `Spells.follows`, what the links of the chain are; `Spells.headings_eq`, that it
reads as the list; and `alike_of_spells`.

## Sections

1. Headings.
2. Spelled chains.
3. Exceptions that are alike.
-/

namespace Ferry

/-! ## §1 Headings -/

/-- What a node says: its kind and its message. -/
def Node.heading (node : Node) : Kind × String :=
  (node.kind, node.message)

namespace ExceptionGraph

/-- What an exception says, if it is alive. -/
def heading? (g : ExceptionGraph) (e : ExceptionRef) : Option (Kind × String) :=
  (g.content? e).map Node.heading

/-- What the exceptions of a chain say, outermost first. -/
def headings (g : ExceptionGraph) (e : ExceptionRef) : List (Option (Kind × String)) :=
  (chain g e).map g.heading?

/-! ## §2 Spelled chains -/

/-- A node without frames that has the same exception, if any, as its cause and as its context. -/
def plainNode (heading : Kind × String) (inner : Option ExceptionRef) : Node :=
  { kind := heading.1, message := heading.2, cause := inner, context := inner }

/-- The chain of an exception has these kinds and messages, outermost first, and nothing else. -/
inductive Spells (g : ExceptionGraph) : ExceptionRef → List (Kind × String) → Prop where
  | innermost {e : ExceptionRef} {heading : Kind × String}
      (hnode : g.content? e = some (plainNode heading none)) : Spells g e [heading]
  | outer {e inner : ExceptionRef} {heading : Kind × String} {rest : List (Kind × String)}
      (hnode : g.content? e = some (plainNode heading (some inner)))
      (hinner : Spells g inner rest) : Spells g e (heading :: rest)

variable {g g' : ExceptionGraph} {e e' : ExceptionRef} {spelled : List (Kind × String)}

theorem Spells.exists_content (hspells : g.Spells e spelled) :
    ∃ node, g.content? e = some node := by
  cases hspells with
  | innermost hnode => exact ⟨_, hnode⟩
  | outer hnode => exact ⟨_, hnode⟩

/-- What is spelled stays so while nothing that is alive changes. -/
theorem Spells.of_content (hspells : g.Spells e spelled)
    (hsame : ∀ x node, g.content? x = some node → g'.content? x = some node) :
    g'.Spells e spelled := by
  induction hspells with
  | innermost hnode => exact .innermost (hsame _ _ hnode)
  | outer hnode _ ih => exact .outer (hsame _ _ hnode) ih

/-- A preserved exception spells what it spelled. -/
theorem Spells.of_preserved (hspells : g.Spells e spelled) (hpreserved : g.Preserved g' e) :
    g'.Spells e spelled := by
  induction hspells with
  | innermost hnode => exact .innermost (hpreserved.content_eq hnode)
  | outer hnode _ ih =>
    exact .outer (hpreserved.content_eq hnode)
      (ih (hpreserved.of_links ⟨_, hnode, List.mem_cons_self⟩))

/-- In each place of a chain is a plain node that says what the list says there, and its links lead
to the next place. -/
structure Follows (g : ExceptionGraph) (spelled : List (Kind × String))
    (chain : List ExceptionRef) : Prop where
  length_eq : chain.length = spelled.length
  place : ∀ i x, chain[i]? = some x → ∃ heading, spelled[i]? = some heading ∧
    g.content? x = some (plainNode heading chain[i + 1]?)

/-- The chain and the list end in the same place. -/
theorem Follows.end_iff {chain : List ExceptionRef} (hfollows : Follows g spelled chain)
    (i : Nat) : chain[i]? = none ↔ spelled[i]? = none := by
  rw [List.getElem?_eq_none_iff, List.getElem?_eq_none_iff, hfollows.length_eq]

theorem Spells.exists_isChain (hspells : g.Spells e spelled) :
    ∃ chain, g.IsChain e chain ∧ Follows g spelled chain := by
  induction hspells with
  | @innermost e heading hnode =>
    refine ⟨[e], .last (by rw [origin?, hnode]; rfl), rfl, fun i x hx => ?_⟩
    cases i with
    | zero =>
      cases hx
      exact ⟨heading, rfl, hnode⟩
    | succ i => simp at hx
  | @outer e inner heading rest hnode _ ih =>
    obtain ⟨chain, hchain, hfollows⟩ := ih
    refine ⟨e :: chain, .cons (by rw [origin?, hnode]; rfl) hchain,
      congrArg (· + 1) hfollows.length_eq, fun i x hx => ?_⟩
    cases i with
    | zero =>
      cases hx
      exact ⟨heading, rfl, hnode.trans (by rw [← hchain.first]; rfl)⟩
    | succ i => exact hfollows.place i x hx

theorem Spells.follows (hspells : g.Spells e spelled) (hclosed : Closed g) :
    Follows g spelled (chain g e) := by
  obtain ⟨node, hnode⟩ := hspells.exists_content
  obtain ⟨chain, hchain, hfollows⟩ := hspells.exists_isChain
  rwa [hchain.chain_eq hclosed hnode]

/-- The chain reads as the list. -/
theorem Spells.headings_eq (hspells : g.Spells e spelled) (hclosed : Closed g) :
    headings g e = spelled.map some := by
  have hfollows := hspells.follows hclosed
  refine List.ext_getElem? fun i => ?_
  rw [headings, List.getElem?_map, List.getElem?_map]
  cases hx : (chain g e)[i]? with
  | none =>
    rw [(hfollows.end_iff i).mp hx]
    rfl
  | some x =>
    obtain ⟨heading, hheading, hcontent⟩ := hfollows.place i x hx
    rw [hheading, Option.map_some, Option.map_some, heading?, hcontent]
    rfl

/-! ## §3 Exceptions that are alike -/

/-- Two nodes agree in all but identity, links being compared by a relation. -/
structure Matches (R : ExceptionRef → ExceptionRef → Prop) (node node' : Node) : Prop where
  kind_eq : node.kind = node'.kind
  message_eq : node.message = node'.message
  frames_eq : node.frames = node'.frames
  cause : Option.Rel R node.cause node'.cause
  context : Option.Rel R node.context node'.context

/-- Two exceptions are structurally equal: what the one leads to corresponds one to one to what the
other leads to, and exceptions that correspond agree in all but identity. -/
def Alike (g g' : ExceptionGraph) (e e' : ExceptionRef) : Prop :=
  ∃ R : ExceptionRef → ExceptionRef → Prop, Relator.BiUnique R ∧ R e e' ∧
    ∀ x x', R x x' → ∃ node node', g.content? x = some node ∧ g'.content? x' = some node' ∧
      Matches R node node'

/-- A place of a list without repetitions is known by what is in it. -/
theorem place_unique {chain : List ExceptionRef} (hnodup : chain.Nodup) {i j : Nat}
    {x : ExceptionRef} (hi : chain[i]? = some x) (hj : chain[j]? = some x) : i = j := by
  obtain ⟨hlt, _⟩ := List.getElem?_eq_some_iff.mp hi
  exact (List.getElem?_inj hlt hnodup).mp (hi.trans hj.symm)

/-- Exceptions that spell the same are alike: their chains correspond place by place. -/
theorem alike_of_spells (hspells : g.Spells e spelled) (hspells' : g'.Spells e' spelled) :
    Alike g g' e e' := by
  obtain ⟨chain, hchain, hfollows⟩ := hspells.exists_isChain
  obtain ⟨chain', hchain', hfollows'⟩ := hspells'.exists_isChain
  refine ⟨fun x x' => ∃ i : Nat, chain[i]? = some x ∧ chain'[i]? = some x', ⟨?_, ?_⟩, ?_, ?_⟩
  · rintro x y x' ⟨i, hx, hi⟩ ⟨j, hy, hj⟩
    cases place_unique hchain'.nodup hi hj
    exact Option.some.inj (hx.symm.trans hy)
  · rintro x x' y' ⟨i, hi, hx⟩ ⟨j, hj, hy⟩
    cases place_unique hchain.nodup hi hj
    exact Option.some.inj (hx.symm.trans hy)
  · exact ⟨0, hchain.first, hchain'.first⟩
  · rintro x x' ⟨i, hx, hx'⟩
    obtain ⟨heading, hheading, hcontent⟩ := hfollows.place i x hx
    obtain ⟨heading', hheading', hcontent'⟩ := hfollows'.place i x' hx'
    rw [hheading] at hheading'
    cases hheading'
    -- Both chains end where the list does, so both have a next place or neither has.
    have hend : chain[i + 1]? = none ↔ chain'[i + 1]? = none :=
      (hfollows.end_iff _).trans (hfollows'.end_iff _).symm
    have hnext : Option.Rel (fun x x' => ∃ i : Nat, chain[i]? = some x ∧ chain'[i]? = some x')
        chain[i + 1]? chain'[i + 1]? := by
      cases hy : chain[i + 1]? with
      | none =>
        rw [hend.mp hy]
        exact .none
      | some y =>
        obtain ⟨y', hy'⟩ := Option.ne_none_iff_exists'.mp fun hnone =>
          Option.some_ne_none y (hy.symm.trans (hend.mpr hnone))
        rw [hy']
        exact .some ⟨i + 1, hy, hy'⟩
    exact ⟨_, _, hcontent, hcontent', rfl, rfl, rfl, hnext, hnext⟩

end ExceptionGraph

end Ferry
