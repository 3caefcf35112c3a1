import Ferry.Proofs.Exception.Growth
import Mathlib.Order.WellFoundedSet

/-!
# Heaps of exceptions

Exceptions that are counted exactly make a heap: the holders of each are its links and the
references to it from outside.  Links run in no circle, so whoever follows them back comes to a
reference from outside in the end, and what is alive is just what can be reached from outside.
Letting go keeps a heap a heap.  What goes is therefore what was reached through the reference that
was given up, and through no other.

Main statements: `Heap.alive_iff`, `Heap.of_dropAll`, and `Heap.gone_iff`, which exceptions go.

## Sections

1. Exact counts.
2. What is alive.
3. Letting go.
4. What goes.
-/

namespace Ferry.ExceptionGraph

variable {g : ExceptionGraph} {outside : ExceptionRef → Nat} {e x : ExceptionRef}

/-! ## §1 Exact counts -/

/-- The number of links to an exception. -/
def linksTo (g : ExceptionGraph) (e : ExceptionRef) : Nat :=
  g.weight fun node => node.links.count e

/-- Exceptions that are counted exactly, given how often each is referred to from outside. -/
structure Heap (g : ExceptionGraph) (outside : ExceptionRef → Nat) : Prop where
  /-- A count is the number of links and of references from outside. -/
  count_eq : ∀ e, g.holders e = g.linksTo e + outside e
  /-- What nobody refers to is not kept. -/
  attended : g.Attended
  acyclic : ∀ e, ¬Relation.TransGen g.Links e e

theorem linksTo_pos (hlink : g.Links x e) : 0 < g.linksTo e := by
  obtain ⟨node, hnode, hmem⟩ := hlink
  have hle := Pool.le_weight (w := fun node : Node => node.links.count e) hnode
  have hcount : 0 < node.links.count e := List.count_pos_iff.mpr hmem
  unfold linksTo
  omega

/-- What links is alive. -/
theorem exists_content_of_links (hlink : g.Links x e) : ∃ node, g.content? x = some node := by
  obtain ⟨node, hnode, _⟩ := hlink
  exact ⟨node, hnode⟩

/-- Whatever is linked to is linked to from somewhere. -/
theorem exists_links_of_linksTo_pos (hpos : 0 < g.linksTo e) : ∃ x, g.Links x e := by
  obtain ⟨x, node, hnode, hcount⟩ := Pool.exists_of_weight_pos hpos
  exact ⟨x, node, hnode, List.count_pos_iff.mp hcount⟩

/-! ## §2 What is alive -/

theorem Heap.exists_content_of_outside (hheap : Heap g outside) (hpos : 0 < outside e) :
    ∃ node, g.content? e = some node := by
  apply Pool.exists_content_of_holders_pos
  rw [hheap.count_eq]
  omega

theorem Heap.closed (hheap : Heap g outside) : Closed g := by
  intro x e hlink
  have hpos := linksTo_pos hlink
  apply Pool.exists_content_of_holders_pos
  rw [hheap.count_eq]
  omega

/-- What is reached from outside is alive. -/
theorem Heap.exists_content_of_reaches (hheap : Heap g outside) (hpos : 0 < outside e)
    (hreaches : g.Reaches e x) : ∃ node, g.content? x = some node := by
  cases hreaches with
  | refl => exact hheap.exists_content_of_outside hpos
  | tail _ hlink => exact hheap.closed _ _ hlink

/-- Following links back comes to an end: they run in no circle, and there are finitely many. -/
theorem Heap.wellFounded_links (hheap : Heap g outside) : WellFounded g.Links := by
  let places : Set ExceptionRef := {e | e.index < g.cells.size}
  have hfinite : places.Finite := by
    have hinjective : Function.Injective (@Ref.index .exception) := by
      rintro ⟨i⟩ ⟨j⟩ rfl
      rfl
    exact (Set.finite_lt_nat g.cells.size).preimage hinjective.injOn
  have horder : IsStrictOrder ExceptionRef (Relation.TransGen g.Links) :=
    { irrefl := hheap.acyclic
      trans := fun _ _ _ => Relation.TransGen.trans }
  refine (Set.wellFoundedOn_iff.mp (hfinite.wellFoundedOn (r := Relation.TransGen g.Links))).mono ?_
  intro x e hlink
  -- Both ends of a link are alive, so both have their place.
  obtain ⟨node, hnode⟩ := exists_content_of_links hlink
  obtain ⟨target, htarget⟩ := hheap.closed x e hlink
  exact ⟨.single hlink, Pool.index_lt_of_content hnode, Pool.index_lt_of_content htarget⟩

/-- What is alive is reached from outside. -/
theorem Heap.exists_root (hheap : Heap g outside) {node : Node} (hnode : g.content? x = some node) :
    ∃ root, 0 < outside root ∧ g.Reaches root x := by
  -- The induction goes back along the links: what is alive has a reference from outside or a link.
  induction x using hheap.wellFounded_links.induction generalizing node with
  | _ x ih =>
    have hholders := hheap.attended x node hnode
    rw [hheap.count_eq] at hholders
    by_cases hpos : 0 < outside x
    · exact ⟨x, hpos, .refl⟩
    · obtain ⟨linker, hlink⟩ := exists_links_of_linksTo_pos (g := g) (e := x) (by omega)
      obtain ⟨found, hfound⟩ := exists_content_of_links hlink
      obtain ⟨root, hroot, hreaches⟩ := ih linker hlink hfound
      exact ⟨root, hroot, hreaches.tail hlink⟩

theorem Heap.alive_iff (hheap : Heap g outside) :
    (∃ node, g.content? x = some node) ↔ ∃ root, 0 < outside root ∧ g.Reaches root x := by
  constructor
  · rintro ⟨node, hnode⟩
    exact hheap.exists_root hnode
  · rintro ⟨root, hroot, hreaches⟩
    exact hheap.exists_content_of_reaches hroot hreaches

/-! ## §3 Letting go -/

/-- References from outside, together with pending ones. -/
def withPending (outside : ExceptionRef → Nat) (pending : List ExceptionRef) (e : ExceptionRef) :
    Nat :=
  pending.count e + outside e

@[simp] theorem withPending_nil (outside : ExceptionRef → Nat) :
    withPending outside [] = outside := by
  funext e
  simp [withPending]

theorem links_sub {g' : ExceptionGraph}
    (hsub : ∀ x node, g'.content? x = some node → g.content? x = some node)
    (hlink : g'.Links x e) : g.Links x e := by
  obtain ⟨node, hnode, hmem⟩ := hlink
  exact ⟨node, hsub x node hnode, hmem⟩

theorem reaches_of_dropAll {pending : List ExceptionRef}
    (hreaches : (dropAll g pending).Reaches e x) : g.Reaches e x :=
  Relation.ReflTransGen.mono (fun _ _ => links_sub fun _ _ => content?_of_dropAll) _ _ hreaches

/-- What becomes pending when a node goes are the links that go with it. -/
theorem linksTo_release (g : ExceptionGraph) (e x : ExceptionRef) :
    linksTo (g.release e).1 x + (departing (g.release e).2).count x = g.linksTo x := by
  have hweight := Pool.weight_release (fun node : Node => node.links.count x) g e
  have hcount : (departing (g.release e).2).count x
      = ((g.release e).2.map fun node => node.links.count x).getD 0 := by
    cases (g.release e).2 <;> rfl
  rw [hcount]
  exact hweight

/-- One step of the work list keeps a heap a heap. -/
theorem Heap.of_release {pending : List ExceptionRef}
    (hheap : Heap g (withPending outside (e :: pending))) :
    Heap (g.release e).1 (withPending outside (departing (g.release e).2 ++ pending)) where
  count_eq x := by
    have hbefore := hheap.count_eq x
    have hlinks := linksTo_release g e x
    rw [Pool.holders_release]
    simp only [withPending, List.count_cons, List.count_append, beq_iff_eq] at hbefore ⊢
    omega
  attended := Pool.attended_release hheap.attended e
  acyclic x hcircle := hheap.acyclic x
    (Relation.TransGen.mono (fun _ _ => links_sub fun _ _ => Pool.content?_of_release) _ _ hcircle)

/-- Letting go of what is pending leaves a heap. -/
theorem Heap.of_dropAll {pending : List ExceptionRef}
    (hheap : Heap g (withPending outside pending)) : Heap (dropAll g pending) outside := by
  induction g, pending using dropAll.induct with
  | case1 g =>
    rw [dropAll_nil]
    rwa [withPending_nil] at hheap
  | case2 g e rest released ih =>
    rw [dropAll_cons]
    exact ih hheap.of_release

/-! ## §4 What goes -/

/-- References from outside when one of them has been given up. -/
def oneLess (outside : ExceptionRef → Nat) (e x : ExceptionRef) : Nat :=
  outside x - if e = x then 1 else 0

theorem withPending_oneLess (hpos : 0 < outside e) :
    withPending (oneLess outside e) [e] = outside := by
  funext x
  simp only [withPending, oneLess, List.count_singleton, beq_iff_eq]
  split
  · rename_i heq
    subst heq
    omega
  · omega

theorem Heap.of_drop (hheap : Heap g outside) (hpos : 0 < outside e) :
    Heap (drop g e) (oneLess outside e) := by
  apply Heap.of_dropAll
  rwa [withPending_oneLess hpos]

/-- What is reached through the references that remain is spared. -/
theorem Heap.preserved (hheap : Heap g outside) (hpos : 0 < outside e) {root : ExceptionRef}
    (hroot : 0 < oneLess outside e root) : g.Preserved (drop g e) root := by
  have hbefore : 0 < outside root := by
    unfold oneLess at hroot
    omega
  obtain ⟨node, hnode⟩ := hheap.exists_content_of_outside hbefore
  obtain ⟨later, hlater⟩ := (hheap.of_drop hpos).exists_content_of_outside hroot
  exact preserved_of_grows (grows_dropAll g [e]) hheap.closed (hheap.of_drop hpos).closed hnode
    hlater

/-- What goes is what was reached through the reference that was given up and through no other. -/
theorem Heap.gone_iff (hheap : Heap g outside) (hpos : 0 < outside e) :
    ((∃ node, g.content? x = some node) ∧ (drop g e).content? x = none) ↔
      g.Reaches e x ∧ ∀ root, 0 < oneLess outside e root → ¬g.Reaches root x := by
  constructor
  · rintro ⟨halive, hgone⟩
    have hnot : ∀ root, 0 < oneLess outside e root → ¬g.Reaches root x := by
      intro root hroot hreaches
      obtain ⟨_, _, hlater⟩ := hheap.preserved hpos hroot x hreaches
      rw [hgone] at hlater
      cases hlater
    -- It was reached from somewhere, and only one reference was given up.
    obtain ⟨root, hroot, hreaches⟩ := hheap.alive_iff.mp halive
    refine ⟨?_, hnot⟩
    by_cases heq : e = root
    · exact heq ▸ hreaches
    · have hless : 0 < oneLess outside e root := by
        rwa [oneLess, if_neg heq]
      exact absurd hreaches (hnot root hless)
  · rintro ⟨hreaches, hnot⟩
    refine ⟨hheap.alive_iff.mpr ⟨e, hpos, hreaches⟩, ?_⟩
    by_contra hkept
    have halive := Option.ne_none_iff_exists'.mp hkept
    obtain ⟨root, hroot, hlater⟩ := (hheap.of_drop hpos).alive_iff.mp halive
    exact hnot root hroot (reaches_of_dropAll hlater)

end Ferry.ExceptionGraph
