import Ferry.Proofs.Bridge.Relay
import Ferry.Proofs.Exception.Outlines

/-!
# Outlines and hops agree

A chain can be written down as an outline and built, or it can grow hop by hop as a failure is passed
on.  Either way the same kinds and messages give the same chain: a new exception that is captured,
chained once for each further entry and raised in the end spells the entries, and so does what is
built from an outline of them.

Main statement: `outlines_agree_after`, what holds of outlines after a script.

## Sections

1. Hops that spell.
2. What an outline stands for.
3. After a script.
-/

namespace Ferry

open Account ExceptionGraph Holdings

namespace Bridge

variable {b : Bridge} {h h' h'' : Holdings} {g : ExceptionGraph} {x z : ExceptionRef}
  {rest : Multiset Share} {d : Dealings}

/-! ## §1 Hops that spell -/

/-- The hops that pass a failure on as exceptions of these kinds and messages. -/
def chaining (row : List (Kind × String)) : List Hop :=
  row.map fun entry => .chain entry.1 entry.2

/-- Hops add what they say to what is spelled, each on top of the one before. -/
theorem Stacked.spells {row spelled : List (Kind × String)}
    (hstacked : Stacked b g x (chaining row) z) (hspells : g.Spells x spelled) :
    g.Spells z (row.reverse ++ spelled) := by
  induction row generalizing x spelled with
  | nil =>
    cases hstacked
    exact hspells
  | cons entry row ih =>
    cases hstacked with
    | cons hnode hrest =>
      rw [List.reverse_cons, List.append_assoc]
      exact ih hrest (.outer hnode hspells)

/-- A new exception that is captured is raised as it was made. -/
theorem reconstruct_captureFrom (ha : Consistent ⟨h, rest, d⟩)
    (hr : b.registry < h.registries.size) (hroom : (h.registry b.registry).Room) (hb : b.Built)
    (entry : Kind × String) :
    let sent := b.captureFrom h entry.1 entry.2 none
    ∃ after e, sent.2.isOk = false ∧ b.reconstruct sent.1 sent.2 = (after, .ok (some e)) ∧
      after.exceptions.Spells e [entry] ∧ Ready b after e rest d := by
  intro sent
  obtain ⟨made, e, hmade, hcell, -⟩ := create_new h.exceptions entry.1 entry.2
  have hnew : h.newException entry.1 entry.2 = (h.withExceptions made, e) := by
    rw [newException, hmade]
    rfl
  have hnode : made.content? e = some (plainNode entry none) := by
    rw [Pool.content?, hcell]
    rfl
  -- The new exception is in hand and can be carried.
  have hafter := (newException_transfer h entry.1 entry.2).made ha
  rw [hnew] at hafter
  have hready : Ready b (h.withExceptions made) e rest d := ⟨hafter, hr, hroom⟩
  have hsent : sent = b.carry (h.withExceptions made) entry.1.code entry.2 .raw (some e) := by
    have hcaptured := dropException_capture (b := b) hafter.exceptions_attended hnode
    simp only [sent, captureFrom, hnew]
    exact hcaptured
  obtain ⟨_, _, after, raised, -, hresult, hgrows, rfl, -, hend⟩ :=
    hready.carry hb entry.1.isOk_code entry.2 .raw
  rw [← hsent] at hresult
  refine ⟨after, raised, ?_, hresult, ?_, hend⟩
  · rw [hsent]
    exact b.isOk_carry _ entry.1.isOk_code entry.2 .raw raised
  · obtain ⟨later, hlater⟩ := hend.exists_content
    have hsame := hgrows.content raised later (Pool.index_lt_of_content hnode) hlater
    cases hnode.symm.trans hsame
    exact .innermost hlater

/-- Hops from a new exception spell what they say on top of it. -/
theorem hops_spell (ha : Consistent ⟨h, rest, d⟩) (hr : b.registry < h.registries.size)
    (hroom : (h.registry b.registry).Room) (hb : b.Built) (entry : Kind × String)
    (row : List (Kind × String)) :
    let sent := b.captureFrom h entry.1 entry.2 none
    ∃ h' last h'' z, b.hops sent.1 sent.2 (chaining row) = (h', .ok last) ∧
      b.reconstruct h' last = (h'', .ok (some z)) ∧
      h''.exceptions.Spells z (entry :: row).reverse ∧ Ready b h'' z rest d := by
  intro sent
  obtain ⟨after, e, hfails, hresult, hspells, hready⟩ :=
    reconstruct_captureFrom ha hr hroom hb entry
  rw [List.reverse_cons]
  cases row with
  | nil => exact ⟨_, _, after, e, rfl, hresult, hspells, hready⟩
  | cons first row =>
    have hchained : ∀ step ∈ chaining (first :: row), step.Fails := by
      intro step hstep
      obtain ⟨next, -, rfl⟩ := List.mem_map.mp hstep
      exact trivial
    obtain ⟨h', last, h'', z, hhops, hrelays, hend⟩ := exists_relays hb hready hchained
    refine ⟨h', last, h'', z, ?_, hrelays.reconstruct_eq,
      hrelays.stacked.spells (hspells.of_preserved hrelays.preserved), hend⟩
    exact (hops_of_reconstruct hfails hresult _ _).trans hhops

end Bridge

namespace Outline

/-! ## §2 What an outline stands for -/

/-- An exception is what an outline says and nothing else. -/
structure Describes (outline : Outline) (g : ExceptionGraph) (e : ExceptionRef) : Prop where
  /-- Read innermost first, the chain has the kinds and messages of the links. -/
  headings_eq : (headings g e).reverse = outline.entries.map some
  /-- Each exception of the chain has the next as its cause and as its context, the innermost has
  neither, and none has frames. -/
  linked : ∀ i x, (chain g e)[i]? = some x → ∃ node, g.content? x = some node ∧
    node.cause = (chain g e)[i + 1]? ∧ node.context = (chain g e)[i + 1]? ∧ node.frames = []
  /-- The outline of the exception is the outline itself. -/
  redrawn : ofException g e = outline

theorem describes_of_spells {g : ExceptionGraph} {e : ExceptionRef} {row : List (Kind × String)}
    (hspells : g.Spells e row.reverse) (hclosed : Closed g) : (ofEntries row).Describes g e where
  headings_eq := by
    rw [hspells.headings_eq hclosed, entries_ofEntries, List.map_reverse, List.reverse_reverse]
  linked i x hx := by
    obtain ⟨heading, -, hcontent⟩ := (hspells.follows hclosed).place i x hx
    exact ⟨_, hcontent, rfl, rfl, rfl⟩
  redrawn := ofException_of_headings (hspells.headings_eq hclosed)

/-- What is built from outlines, and what it has in common with exceptions that come about in other
ways. -/
structure Agrees (h : Holdings) : Prop where
  /-- Each link of an outline is raised from the one before, and the first from none. -/
  caused : ∀ outline, Drawn outline → ∀ i link, outline.links[i]? = some link →
    link.cause = if i = 0 then none else some (i - 1)
  /-- Nothing is built just if there is no link. -/
  nothing : ∀ outline, Drawn outline →
    ((outline.build h.exceptions).2 = none ↔ outline.size = 0)
  /-- An exception that is built is what the outline says. -/
  built : ∀ outline, Drawn outline → ∀ e, (outline.build h.exceptions).2 = some e →
    outline.Describes (outline.build h.exceptions).1 e
  /-- From the outline of an exception, another with the same kinds and messages is built. -/
  rebuilt : ∀ e node, h.exceptions.content? e = some node →
    ∃ e', ((ofException h.exceptions e).build h.exceptions).2 = some e' ∧
      headings ((ofException h.exceptions e).build h.exceptions).1 e' = headings h.exceptions e
  /-- A new exception is captured, chained once for each further entry, and raised.  It is alike to
  what is built from an outline of the same pushes, be it before or afterwards. -/
  relayed : ∀ b : Bridge, b.Built → b.registry < h.registries.size →
    (h.registry b.registry).slots.size < 2 ^ 64 →
    ∀ (entry : Kind × String) (row : List (Kind × String)),
    ∃ h' last h'' z,
      b.hops (b.captureFrom h entry.1 entry.2 none).1 (b.captureFrom h entry.1 entry.2 none).2
          (Bridge.chaining row) = (h', .ok last) ∧
      b.reconstruct h' last = (h'', .ok (some z)) ∧
      ∀ g, g = h.exceptions ∨ g = h''.exceptions →
        ∃ e, ((ofEntries (entry :: row)).build g).2 = some e ∧
          Alike h''.exceptions ((ofEntries (entry :: row)).build g).1 z e

variable {h : Holdings} {rest : Multiset Share} {d : Dealings}

/-- From a row of pushes an exception is built that spells it. -/
theorem exists_build (ha : Consistent ⟨h, rest, d⟩) {row : List (Kind × String)} (hne : row ≠ []) :
    ∃ e, ((ofEntries row).build h.exceptions).2 = some e ∧
      ((ofEntries row).build h.exceptions).1.Spells e row.reverse := by
  obtain ⟨e, he⟩ := Option.ne_none_iff_exists'.mp fun hnone =>
    hne ((build_eq_none_iff h.exceptions row).mp hnone)
  exact ⟨e, he, spells_of_build ha row he⟩

theorem agrees_of_consistent (ha : Consistent ⟨h, rest, d⟩) (hfounded : Founded h.exceptions) :
    Agrees h where
  caused _ hdrawn _ _ hlink := hdrawn.cause_eq hlink
  nothing outline hdrawn := by
    rw [hdrawn.eq_ofEntries, build_eq_none_iff, size_ofEntries, List.length_eq_zero_iff]
  built outline hdrawn e he := by
    rw [hdrawn.eq_ofEntries] at he ⊢
    exact describes_of_spells (spells_of_build ha _ he) (consistent_build ha _).closed
  rebuilt e node hnode := by
    obtain ⟨row, hne, hheadings⟩ := exists_headings hfounded ha.closed hnode
    obtain ⟨e', he', hspells⟩ := exists_build ha hne
    rw [ofException_of_headings hheadings]
    exact ⟨e', he', (hspells.headings_eq (consistent_build ha _).closed).trans hheadings.symm⟩
  relayed b hb hr hroom entry row := by
    obtain ⟨h', last, h'', z, hhops, hresult, hspells, hend⟩ :=
      Bridge.hops_spell ha hr (Registry.room_of_size_lt hroom) hb entry row
    refine ⟨h', last, h'', z, hhops, hresult, ?_⟩
    rintro g (rfl | rfl)
    · obtain ⟨e, he, hbuilt⟩ := exists_build ha (List.cons_ne_nil entry row)
      exact ⟨e, he, alike_of_spells hspells hbuilt⟩
    · obtain ⟨e, he, hbuilt⟩ := exists_build hend.consistent (List.cons_ne_nil entry row)
      exact ⟨e, he, alike_of_spells hspells hbuilt⟩

end Outline

namespace Script.Session

/-! ## §3 After a script -/

/-- In every state that a script leads to, outlines, the exceptions that are built from them, the
outlines that are drawn from exceptions, and rows of hops all agree. -/
theorem outlines_agree_after (identities : List UInt64) (bridges : List Bridge)
    (commands : List Command) :
    Outline.Agrees ((start identities bridges).after commands).holdings := by
  have hstart := start_consistent identities bridges
  have hrun := after_careful hstart commands
  exact Outline.agrees_of_consistent (hrun.consistent hstart)
    (hrun.founded hstart founded_empty)

/-- An exception has another as its context, with a frame, and is captured. -/
def outlining : List Command :=
  [.exception (.new "root" .lookup "gone"), .exception (.new "e" .type "bad"),
    .exception (.extend "e" "e"
      { context := some "root", frame := some ⟨"main", "a", 3⟩ } true),
    .bridge (.capture 0 "e" "s")]

/-- What this leads to. -/
def outlined : Holdings :=
  ((start [7] [.new 0 {}]).after outlining).holdings

/-- Three entries. -/
def threefold : List (Kind × String) :=
  [(.value, "first"), (.type, "second"), (.assertion, "third")]

/-- The outline of the exception has a link for its context, what is built from it reads as the
exception, and three entries make the same chain either way. -/
theorem outlines_agree_after_outlining :
    (Outline.ofException outlined.exceptions ⟨1⟩).entries
        = [(.lookup, "gone"), (.type, "bad")] ∧
      (∃ e', ((Outline.ofException outlined.exceptions ⟨1⟩).build outlined.exceptions).2 = some e' ∧
        headings ((Outline.ofException outlined.exceptions ⟨1⟩).build outlined.exceptions).1 e'
          = [some (.type, "bad"), some (.lookup, "gone")]) ∧
      ∃ h' last h'' z e,
        (Bridge.new 0 {}).hops ((Bridge.new 0 {}).captureFrom outlined .value "first" none).1
            ((Bridge.new 0 {}).captureFrom outlined .value "first" none).2
            (Bridge.chaining [(.type, "second"), (.assertion, "third")]) = (h', .ok last) ∧
          (Bridge.new 0 {}).reconstruct h' last = (h'', .ok (some z)) ∧
          ((Outline.ofEntries threefold).build outlined.exceptions).2 = some e ∧
          Alike h''.exceptions ((Outline.ofEntries threefold).build outlined.exceptions).1 z e := by
  have hagrees : Outline.Agrees outlined := outlines_agree_after [7] [.new 0 {}] outlining
  have hnode : outlined.exceptions.content? ⟨1⟩
      = some ⟨.type, "bad", none, some ⟨0⟩, [⟨"main", "a", 3⟩]⟩ := by decide +kernel
  have hheadings : headings outlined.exceptions ⟨1⟩
      = [some (.type, "bad"), some (.lookup, "gone")] := by decide +kernel
  have hsize : 0 < outlined.registries.size := by decide +kernel
  have hroom : (outlined.registry 0).slots.size < 2 ^ 64 := by decide +kernel
  obtain ⟨e', he', hrebuilt⟩ := hagrees.rebuilt ⟨1⟩ _ hnode
  obtain ⟨h', last, h'', z, hhops, hresult, halike⟩ := hagrees.relayed (.new 0 {}) (.new 0 {}) hsize
    hroom (.value, "first") [(.type, "second"), (.assertion, "third")]
  obtain ⟨e, he, hsame⟩ := halike _ (Or.inl rfl)
  exact ⟨by decide +kernel, ⟨e', he', hrebuilt.trans hheadings⟩, h', last, h'', z, e, hhops,
    hresult, he, hsame⟩

end Script.Session

end Ferry
