import Ferry.Exception.Graph
import Ferry.Proofs.Ownership.Cells
import Mathlib.Data.List.Nodup
import Mathlib.Data.List.Perm.Subperm
import Mathlib.Logic.Relation
import Mathlib.Order.WellFounded

/-!
# What is reached along links

An exception stands for everything that its links lead to.  Two graphs *preserve* an exception if
all of it is alive in both and the same.  If a graph grows into another, that is, if exceptions were
made and let go but none was edited, then whatever is still alive is preserved.

Links never run in a circle, so every chain of "raised from" ends, and the number of cells is enough
to follow it.

Main statements: `preserved_of_grows`; `chain_eq`, that the chain of an exception is the whole one;
`Founded.exists_isChain`, that there is a whole one; and `Founded.traced`, how it relates to the
sources of an exception.

## Sections

1. Links.
2. Graphs that grow.
3. No circles.
4. Whole chains.
5. Sources.
-/

namespace Ferry.ExceptionGraph

/-! ## §1 Links -/

/-- An exception refers to another as its cause or as its context. -/
def Links (g : ExceptionGraph) (e link : ExceptionRef) : Prop :=
  ∃ node, g.content? e = some node ∧ link ∈ node.links

/-- The second exception can be reached from the first along links. -/
def Reaches (g : ExceptionGraph) : ExceptionRef → ExceptionRef → Prop :=
  Relation.ReflTransGen g.Links

/-- Links lead to exceptions that are alive. -/
def Closed (g : ExceptionGraph) : Prop :=
  ∀ e link, g.Links e link → ∃ node, g.content? link = some node

/-- All that can be reached from an exception is alive in both graphs and the same. -/
def Preserved (g g' : ExceptionGraph) (e : ExceptionRef) : Prop :=
  ∀ x, g.Reaches e x → ∃ node, g.content? x = some node ∧ g'.content? x = some node

variable {g g' g'' : ExceptionGraph} {e x : ExceptionRef}

theorem Preserved.content (hpreserved : g.Preserved g' e) :
    ∃ node, g.content? e = some node ∧ g'.content? e = some node :=
  hpreserved e .refl

theorem Preserved.content_eq {node : Node} (hpreserved : g.Preserved g' e)
    (hnode : g.content? e = some node) : g'.content? e = some node := by
  obtain ⟨found, hfound, hlater⟩ := hpreserved.content
  rw [hnode] at hfound
  cases hfound
  exact hlater

/-- What is reached from a preserved exception is preserved. -/
theorem Preserved.of_reaches (hpreserved : g.Preserved g' e) (hreaches : g.Reaches e x) :
    g.Preserved g' x :=
  fun y hy => hpreserved y (hreaches.trans hy)

theorem Preserved.of_links (hpreserved : g.Preserved g' e) (hlink : g.Links e x) :
    g.Preserved g' x :=
  hpreserved.of_reaches (.single hlink)

/-- A preserved exception reaches what it reached. -/
theorem Preserved.reaches (hpreserved : g.Preserved g' e) (hreaches : g.Reaches e x) :
    g'.Reaches e x := by
  induction hreaches with
  | refl => exact .refl
  | tail hbefore hlink ih =>
    obtain ⟨node, hnode, hmem⟩ := hlink
    exact ih.tail ⟨node, (hpreserved.of_reaches hbefore).content_eq hnode, hmem⟩

theorem Preserved.trans (hfirst : g.Preserved g' e) (hsecond : g'.Preserved g'' e) :
    g.Preserved g'' e := by
  intro x hx
  obtain ⟨node, hnode, hmiddle⟩ := hfirst x hx
  exact ⟨node, hnode, (hsecond.of_reaches (hfirst.reaches hx)).content_eq hmiddle⟩

/-! ## §2 Graphs that grow -/

/-- What is alive in a grown graph is preserved. -/
theorem preserved_of_grows (hgrows : g.Grows g') (hclosed : Closed g) (hclosed' : Closed g')
    {node : Node} (hnode : g.content? e = some node) {later : Node}
    (hlater : g'.content? e = some later) : g.Preserved g' e := by
  intro x hx
  induction hx with
  | refl => exact ⟨later, hgrows.content e later (Pool.index_lt_of_content hnode) hlater, hlater⟩
  | @tail y z _ hlink ih =>
    obtain ⟨found, hfound, hfound'⟩ := ih
    obtain ⟨linker, hlinker, hmem⟩ := hlink
    rw [hfound] at hlinker
    cases hlinker
    -- The link is alive before and after, since the one that links to it is.
    obtain ⟨target, htarget⟩ := hclosed y z ⟨found, hfound, hmem⟩
    obtain ⟨target', htarget'⟩ := hclosed' y z ⟨found, hfound', hmem⟩
    exact ⟨target', hgrows.content z target' (Pool.index_lt_of_content htarget) htarget', htarget'⟩

/-! ## §3 No circles -/

/-- Following links comes to an end. -/
def Founded (g : ExceptionGraph) : Prop :=
  WellFounded fun link e => g.Links e link

theorem founded_empty : Founded ({} : ExceptionGraph) := by
  refine ⟨fun e => ⟨e, fun link hlink => ?_⟩⟩
  obtain ⟨node, hnode, _⟩ := hlink
  simp [Pool.content?, Pool.cell?] at hnode

/-- Circles do not come about if nothing links to what is new or changed. -/
theorem Founded.of_unlinked (hfounded : Founded g)
    (hchanged : ∀ e node, g'.content? e = some node →
      g.content? e = some node ∨ ∀ x, ¬g'.Links x e) : Founded g' := by
  -- What something links to is as it was, so its links lead to what is well-founded.
  have hlinked : ∀ e, (∃ x, g'.Links x e) → Acc (fun link e => g'.Links e link) e := by
    intro e
    induction e using hfounded.induction with
    | _ e ih =>
      rintro ⟨x, hx⟩
      refine ⟨e, fun link hlink => ?_⟩
      obtain ⟨node, hnode, hmem⟩ := hlink
      rcases hchanged e node hnode with hsame | hnone
      · exact ih link ⟨node, hsame, hmem⟩ ⟨e, node, hnode, hmem⟩
      · exact absurd hx (hnone x)
  exact ⟨fun e => ⟨e, fun link hlink => hlinked link ⟨e, hlink⟩⟩⟩

/-! ## §4 Whole chains -/

/-- An exception, the one it was raised from, and so on up to one that was raised from none. -/
inductive IsChain (g : ExceptionGraph) : ExceptionRef → List ExceptionRef → Prop where
  | last {e : ExceptionRef} (horigin : g.origin? e = none) : IsChain g e [e]
  | cons {e origin : ExceptionRef} {rest : List ExceptionRef} (horigin : g.origin? e = some origin)
      (hrest : IsChain g origin rest) : IsChain g e (e :: rest)

variable {chain : List ExceptionRef}

theorem IsChain.first (hchain : g.IsChain e chain) : chain[0]? = some e := by
  cases hchain <;> rfl

/-- What an exception was raised from is one of its links. -/
theorem links_of_origin {origin : ExceptionRef} (horigin : g.origin? e = some origin) :
    g.Links e origin := by
  obtain ⟨node, hnode, hsome⟩ := Option.bind_eq_some_iff.mp horigin
  refine ⟨node, hnode, ?_⟩
  unfold Node.origin at hsome
  unfold Node.links
  cases hcause : node.cause with
  | none => simp_all
  | some cause => simp_all

/-- Where links come to an end, chains do. -/
theorem Founded.exists_isChain (hfounded : Founded g) (e : ExceptionRef) :
    ∃ chain, g.IsChain e chain := by
  induction e using hfounded.induction with
  | _ e ih =>
    cases horigin : g.origin? e with
    | none => exact ⟨[e], .last horigin⟩
    | some origin =>
      obtain ⟨rest, hrest⟩ := ih origin (links_of_origin horigin)
      exact ⟨e :: rest, .cons horigin hrest⟩

/-- An exception has one whole chain at most. -/
theorem IsChain.unique (hchain : g.IsChain e chain) {other : List ExceptionRef}
    (hother : g.IsChain e other) : chain = other := by
  induction hchain generalizing other with
  | last horigin =>
    cases hother with
    | last => rfl
    | cons hsome _ =>
      rw [horigin] at hsome
      cases hsome
  | cons horigin _ ih =>
    cases hother with
    | last hnone =>
      rw [horigin] at hnone
      cases hnone
    | cons hsome hrest =>
      rw [horigin] at hsome
      cases hsome
      rw [ih hrest]

/-- From each of its members, a chain goes on as the chain of the member. -/
theorem IsChain.exists_of_mem (hchain : g.IsChain e chain) (hx : x ∈ chain) :
    ∃ rest, g.IsChain x rest ∧ rest.length ≤ chain.length := by
  induction hchain with
  | last horigin =>
    cases List.mem_singleton.mp hx
    exact ⟨_, .last horigin, Nat.le_refl _⟩
  | cons horigin hrest ih =>
    rcases List.mem_cons.mp hx with rfl | hmem
    · exact ⟨_, .cons horigin hrest, Nat.le_refl _⟩
    · obtain ⟨rest, hchain, hle⟩ := ih hmem
      exact ⟨rest, hchain, hle.trans (Nat.le_succ _)⟩

/-- A whole chain has no exception twice: from there on it would never end. -/
theorem IsChain.nodup (hchain : g.IsChain e chain) : chain.Nodup := by
  induction hchain with
  | last => exact List.nodup_singleton _
  | @cons e origin rest horigin hrest ih =>
    refine List.nodup_cons.mpr ⟨fun hmem => ?_, ih⟩
    obtain ⟨again, hagain, hle⟩ := hrest.exists_of_mem hmem
    have heq := (IsChain.cons horigin hrest).unique hagain
    rw [← heq, List.length_cons] at hle
    omega

/-- A chain that begins with something alive consists of what is alive. -/
theorem IsChain.alive (hchain : g.IsChain e chain) (hclosed : Closed g) {node : Node}
    (hnode : g.content? e = some node) (hx : x ∈ chain) : ∃ node, g.content? x = some node := by
  induction hchain generalizing node with
  | last =>
    cases List.mem_singleton.mp hx
    exact ⟨node, hnode⟩
  | cons horigin _ ih =>
    rcases List.mem_cons.mp hx with rfl | hmem
    · exact ⟨node, hnode⟩
    · obtain ⟨next, hnext⟩ := hclosed _ _ (links_of_origin horigin)
      exact ih hnext hmem

/-- There are cells enough for a whole chain. -/
theorem IsChain.length_le (hchain : g.IsChain e chain) (hclosed : Closed g) {node : Node}
    (hnode : g.content? e = some node) : chain.length ≤ g.cells.size := by
  have hinjective : Function.Injective (@Ref.index .exception) := by
    rintro ⟨i⟩ ⟨j⟩ rfl
    rfl
  have hplaces : (chain.map Ref.index).Nodup := hchain.nodup.map hinjective
  have hsubset : chain.map Ref.index ⊆ List.range g.cells.size := by
    intro place hplace
    obtain ⟨x, hx, rfl⟩ := List.mem_map.mp hplace
    obtain ⟨found, hfound⟩ := hchain.alive hclosed hnode hx
    exact List.mem_range.mpr (Pool.index_lt_of_content hfound)
  have hle := (List.subperm_of_subset hplaces hsubset).length_le
  rwa [List.length_map, List.length_range] at hle

theorem IsChain.chainUpTo_eq (hchain : g.IsChain e chain) {limit : Nat}
    (hlimit : chain.length ≤ limit) : chainUpTo g limit e = chain := by
  induction hchain generalizing limit with
  | last horigin =>
    cases limit with
    | zero => simp at hlimit
    | succ limit => simp [chainUpTo, horigin]
  | cons horigin _ ih =>
    cases limit with
    | zero => simp at hlimit
    | succ limit => simp [chainUpTo, horigin, ih (Nat.le_of_succ_le_succ hlimit)]

/-- The chain of an exception that is alive is the whole one. -/
theorem IsChain.chain_eq (hchain : g.IsChain e chain) (hclosed : Closed g) {node : Node}
    (hnode : g.content? e = some node) : ExceptionGraph.chain g e = chain :=
  hchain.chainUpTo_eq (hchain.length_le hclosed hnode)

/-- The chain of a preserved exception is preserved. -/
theorem IsChain.of_preserved (hchain : g.IsChain e chain) (hpreserved : g.Preserved g' e) :
    g'.IsChain e chain := by
  have hsame : ∀ {x : ExceptionRef}, g.Preserved g' x → g'.origin? x = g.origin? x := by
    intro x hx
    obtain ⟨node, hnode, hlater⟩ := hx.content
    rw [origin?, origin?, hnode, hlater]
  induction hchain with
  | last horigin => exact .last ((hsame hpreserved).trans horigin)
  | cons horigin _ ih =>
    exact .cons ((hsame hpreserved).trans horigin)
      (ih (hpreserved.of_links (links_of_origin horigin)))

/-! ## §5 Sources -/

/-- What is reached by going from an exception to its source, so many times. -/
def sourceAfter? (g : ExceptionGraph) (e : ExceptionRef) : Nat → Option ExceptionRef
  | 0 => some e
  | count + 1 => (sourceAfter? g e count).bind g.source?

/-- In a whole chain, each place has the source of the place before it. -/
theorem IsChain.getElem?_succ (hchain : g.IsChain e chain) (i : Nat) :
    chain[i + 1]? = chain[i]?.bind g.source? := by
  induction hchain generalizing i with
  | last horigin =>
    cases i with
    | zero => simp [← origin?_eq_source?, horigin]
    | succ i => simp
  | @cons e _ _ horigin hrest ih =>
    cases i with
    | zero => exact hrest.first.trans ((origin?_eq_source? g e).symm.trans horigin).symm
    | succ i => exact ih i

theorem IsChain.getElem?_eq (hchain : g.IsChain e chain) (i : Nat) :
    chain[i]? = g.sourceAfter? e i := by
  induction i with
  | zero => exact hchain.first
  | succ i ih => rw [hchain.getElem?_succ, ih, sourceAfter?]

/-- Where links come to an end, no exception can be reached from itself along them. -/
theorem Founded.acyclic (hfounded : Founded g) (e : ExceptionRef) :
    ¬Relation.TransGen g.Links e e := by
  intro hcircle
  have hback : Relation.TransGen (fun link e => g.Links e link) e e :=
    Relation.transGen_swap.mpr hcircle
  exact hfounded.transGen.irrefl.irrefl e hback

/-- The chain of an exception is what tracing its sources comes to. -/
structure Traced (g : ExceptionGraph) (e : ExceptionRef) : Prop where
  /-- Each place of the chain is reached by going to the source as many times, and where no source
  is left the chain ends. -/
  sources : ∀ i, (ExceptionGraph.chain g e)[i]? = g.sourceAfter? e i
  nodup : (ExceptionGraph.chain g e).Nodup
  depth_eq : depth g e = 1 + ((g.source? e).map (depth g)).getD 0

theorem Founded.traced (hfounded : Founded g) (hclosed : Closed g) {node : Node}
    (hnode : g.content? e = some node) : Traced g e := by
  obtain ⟨chain, hchain⟩ := hfounded.exists_isChain e
  have hwhole := hchain.chain_eq hclosed hnode
  refine ⟨fun i => hwhole ▸ hchain.getElem?_eq i, hwhole ▸ hchain.nodup, ?_⟩
  rw [depth, hwhole, ← origin?_eq_source?]
  cases hchain with
  | last horigin => simp [horigin]
  | cons horigin hrest =>
    obtain ⟨found, hfound⟩ := hclosed _ _ (links_of_origin horigin)
    rw [horigin, Option.map_some, Option.getD_some, depth, hrest.chain_eq hclosed hfound,
      List.length_cons, Nat.add_comm]

end Ferry.ExceptionGraph
