/-!
# Work lists whose order does not matter

A work list is run by doing its first task and putting what this brings up in front of the others.
If two tasks may be exchanged, that is, if doing one and then the other comes to the same state and
brings up the same tasks in either order, then the order of the whole list does not matter.

States are compared by an equivalence, since some of what a state keeps may depend on the order.

Main statements: `Process.run_perm`, that the order does not matter, and `Process.run_append`.
-/

namespace Ferry

/-- Tasks on a state, and how a list of them is run. -/
structure Process (S A : Type) where
  /-- Does a task, and returns what it brings up. -/
  step : S → A → S × List A
  run : S → List A → S
  /-- What is left to do at most. -/
  weight : S → List A → Nat
  /-- Whether two states differ in nothing that counts. -/
  Alike : S → S → Prop

namespace Process

variable {S A : Type}

/-- The list is worked off from its front, and the work comes to an end. -/
structure Runs (P : Process S A) : Prop where
  nil : ∀ s, P.run s [] = s
  cons : ∀ s a rest, P.run s (a :: rest) = P.run (P.step s a).1 ((P.step s a).2 ++ rest)
  less : ∀ s a rest, P.weight (P.step s a).1 ((P.step s a).2 ++ rest) < P.weight s (a :: rest)

/-- Two tasks come to the same in either order. -/
def Exchange (P : Process S A) (s : S) (a b : A) : Prop :=
  P.Alike (P.step (P.step s a).1 b).1 (P.step (P.step s b).1 a).1 ∧
    ((P.step (P.step s a).1 b).2 ++ (P.step s a).2).Perm
      ((P.step (P.step s b).1 a).2 ++ (P.step s b).2)

/-- Any two tasks come to the same in either order, and alike states behave alike. -/
structure Commutes (P : Process S A) : Prop extends P.Runs where
  weight_perm : ∀ s {p q : List A}, p.Perm q → P.weight s p = P.weight s q
  alike : Equivalence P.Alike
  step_alike : ∀ {s t}, P.Alike s t → ∀ a, P.Alike (P.step s a).1 (P.step t a).1 ∧
    (P.step s a).2 = (P.step t a).2
  exchange : ∀ s a b, P.Exchange s a b

variable {P : Process S A}

/-- A list that is run in two parts is run as a whole. -/
theorem run_append (hP : P.Runs) (s : S) (p q : List A) :
    P.run s (p ++ q) = P.run (P.run s p) q := by
  generalize hn : P.weight s p = n
  induction n using Nat.strongRecOn generalizing s p with
  | ind n ih =>
    cases p with
    | nil => rw [List.nil_append, hP.nil]
    | cons a rest =>
      have hless := hP.less s a rest
      rw [hn] at hless
      rw [List.cons_append, hP.cons, hP.cons, ← List.append_assoc]
      exact ih _ hless _ _ rfl

/-- The order of the tasks does not matter. -/
theorem run_perm (hP : P.Commutes) {s t : S} (halike : P.Alike s t) {p q : List A}
    (hperm : p.Perm q) : P.Alike (P.run s p) (P.run t q) := by
  -- The induction is on what is left to do; exchanging two tasks takes two steps.
  generalize hn : P.weight s p = n
  induction n using Nat.strongRecOn generalizing s t p q with
  | ind n ih =>
    have hfirst : ∀ {t a rest rest'}, P.Alike s t → P.weight s (a :: rest) = n →
        rest.Perm rest' → P.Alike (P.run s (a :: rest)) (P.run t (a :: rest')) := by
      intro t a rest rest' halike hn hrest
      obtain ⟨hstep, hfreed⟩ := hP.step_alike halike a
      have hless := hP.less s a rest
      rw [hP.cons, hP.cons, ← hfreed]
      apply ih _ (hn ▸ hless) hstep (hrest.append_left _) rfl
    have hboth : ∀ {x y rest}, P.weight s (x :: y :: rest) = n →
        P.Alike (P.run s (x :: y :: rest))
          (P.run (P.step (P.step s x).1 y).1
            ((P.step (P.step s x).1 y).2 ++ ((P.step s x).2 ++ rest))) := by
      intro x y rest hn
      have hless := hP.less s x (y :: rest)
      rw [hP.cons s x, ← hP.cons (P.step s x).1 y]
      apply ih _ (hn ▸ hless) (hP.alike.refl _) List.perm_middle rfl
    induction hperm generalizing t with
    | nil =>
      rw [hP.nil, hP.nil]
      exact halike
    | cons a hrest _ => exact hfirst halike hn hrest
    | trans hfront _ ihfront ihback =>
      have hweight := hP.weight_perm s hfront
      exact hP.alike.trans (ihfront (hP.alike.refl s) hn) (ihback halike (hweight ▸ hn))
    | swap a b rest =>
      have hn' : P.weight s (a :: b :: rest) = n :=
        (hP.weight_perm s (List.Perm.swap b a rest)).trans hn
      -- Exchange the tasks in one state, and then pass to the other state.
      refine hP.alike.trans ?_ (hfirst halike hn' (List.Perm.refl _))
      refine hP.alike.trans (hboth hn) (hP.alike.trans ?_ (hP.alike.symm (hboth hn')))
      obtain ⟨hstates, hfreed⟩ := hP.exchange s b a
      have hless := hP.less (P.step s b).1 a ((P.step s b).2 ++ rest)
      have hmiddle : P.weight (P.step s b).1 ((P.step s b).2 ++ a :: rest)
          = P.weight (P.step s b).1 (a :: ((P.step s b).2 ++ rest)) :=
        hP.weight_perm _ List.perm_middle
      have hbefore := hP.less s b (a :: rest)
      rw [hn, hmiddle] at hbefore
      apply ih _ (Nat.lt_trans hless hbefore) hstates _ rfl
      rw [← List.append_assoc, ← List.append_assoc]
      exact hfreed.append_right rest

end Process

end Ferry
