import EagerLambda.Proofs.Runs
import Mathlib.Data.Set.Defs

/-!
# Reachable bindings

An evaluation looks up free names of the terms that it goes through, and these are free names of
the term it began with or of definitions it has looked up. So it does not see a binding outside a
set of names that holds them all (`evaluate_reads_reachable`), whatever names it makes on the way.
-/

namespace EagerLambda

/-- All free names of the term are in the set. -/
def Term.Within (t : Term) (names : Set Name) : Prop :=
  ∀ x, t.Free x → x ∈ names

namespace Bindings

/-- The definition of a name in the set leads to no name outside it. -/
def ClosedOn (defs : Bindings) (names : Set Name) : Prop :=
  ∀ x ∈ names, ∀ body, defs[x]? = some body → body.Within names

/-- Each name in the set has the same definition in both, or none in either. -/
def AgreeOn (defs other : Bindings) (names : Set Name) : Prop :=
  ∀ x ∈ names, defs[x]? = other[x]?

end Bindings

namespace Term

variable {defs other : Bindings} {names : Set Name} {t : Term} {p : Progress}

theorem within_app (f a : Term) : (app f a).Within names ↔ f.Within names ∧ a.Within names := by
  simp [Within, Free, or_imp, forall_and]

/-- What a reduction makes for a parameter is bound by that parameter, so no step frees a name. -/
theorem within_invariant (closed : defs.ClosedOn names) :
    StepInvariant defs (·.Within names) where
  app := within_app
  expand x body bound within := closed x (within x rfl) body bound
  reduce x b a w function argument := by
    intro z free
    rcases free_substitute free with ⟨body, notParameter⟩ | value
    · exact function z ⟨notParameter, body⟩
    · exact argument z value

theorem step?_agree (agree : defs.AgreeOn other names) (within : t.Within names) (p : Progress) :
    t.step? defs p = t.step? other p := by
  induction t with
  | var x =>
    have same := agree x (within x rfl)
    rw [step?, step?, same]
  | lam x b => rfl
  | app f a ihf iha =>
    obtain ⟨function, argument⟩ := (within_app f a).mp within
    rw [step?, step?, ihf function, iha argument]

theorem run_agree (agree : defs.AgreeOn other names) (closed : defs.ClosedOn names)
    (within : t.Within names) (n : Nat) :
    t.run defs (p.steps + n) p = t.run other (p.steps + n) p := by
  induction n generalizing t p with
  | zero =>
    rw [run_eq_step defs, run_eq_step other, step?_agree agree within]
    cases t.step? other p with
    | none => rfl
    | some c => simp
  | succ n ih =>
    have same := step?_agree agree within p
    cases step : t.step? defs p with
    | none =>
      rw [run_of_step?_eq_none step, run_of_step?_eq_none (same ▸ step)]
    | some c =>
      obtain ⟨t', p'⟩ := c
      have step' : t.step? other p = some (t', p') := same ▸ step
      have count := steps_step? step
      have budget : p.steps + (n + 1) = p'.steps + n := by omega
      calc t.run defs (p.steps + (n + 1)) p
        _ = t'.run defs (p'.steps + n) p' := by
          rw [budget, run_of_step?_eq_some step (by omega)]
        _ = t'.run other (p'.steps + n) p' := ih ((within_invariant closed).step step within)
        _ = t.run other (p.steps + (n + 1)) p := by
          rw [budget, run_of_step?_eq_some step' (by omega)]

end Term

theorem evaluate_agree {defs other : Bindings} {names : Set Name} {t : Term}
    (agree : defs.AgreeOn other names) (closed : defs.ClosedOn names) (within : t.Within names)
    (limits : Limits) (w : Workspace) :
    evaluate defs limits t w = evaluate other limits t w := by
  have run := Term.run_agree (p := { toWorkspace := w }) agree closed within limits.budget
  rw [Nat.zero_add] at run
  rw [evaluate, evaluate, run]

/-- Evaluation reads only the bindings that its term can reach, and frees no name. If the set holds
the free names of the term and leads to no name outside itself, then bindings that agree on it give
the same outcome, supply, events and count, and the free names of a value are in the set. -/
theorem evaluate_reads_reachable {defs other : Bindings} {names : Set Name} {t : Term}
    (within : t.Within names) (closed : defs.ClosedOn names) (agree : defs.AgreeOn other names)
    (limits : Limits) (w : Workspace) :
    evaluate defs limits t w = evaluate other limits t w ∧
      ∀ v p, evaluate defs limits t w = (.value v, p) → v.Within names := by
  constructor
  · exact evaluate_agree agree closed within limits w
  · intro v p value
    exact (Term.within_invariant closed).value value within

/-- The parameter is renamed to `y1`, which is bound outside the reachable names. -/
theorem evaluate_ignores_made_name :
    let defs : Bindings :=
      (∅ : Bindings).insert "k" (.lam "x" (.lam "y" (.app (.var "x") (.var "y"))))
    let other : Bindings := defs.insert "y1" (.var "k")
    let names : Set Name := {x | x = "k" ∨ x = "y"}
    let t : Term := .app (.var "k") (.var "y")
    let r := evaluate defs { maxSteps := some 2 } t {}
    t.Within names ∧ defs.ClosedOn names ∧ defs.AgreeOn other names ∧
      r.1 = .value (.lam "y1" (.app (.var "y") (.var "y1"))) ∧
      r = evaluate other { maxSteps := some 2 } t {} ∧
      (Term.lam "y1" (.app (.var "y") (.var "y1"))).Within names := by
  intro defs other names t r
  have within : t.Within names := by
    intro x free
    rcases free with free | free
    · exact Or.inl free
    · exact Or.inr free
  have closed : defs.ClosedOn names := by
    intro x mem body bound z free
    simp only [defs, Std.ExtTreeMap.getElem?_insert] at bound
    split at bound
    · obtain rfl := Option.some.inj bound
      obtain ⟨notX, notY, isX | isY⟩ := free
      · exact absurd isX notX
      · exact absurd isY notY
    · simp at bound
  have agree : defs.AgreeOn other names := by
    intro x mem
    have reachable : x ≠ "y1" := by
      rcases mem with rfl | rfl <;> decide
    simp [other, Std.ExtTreeMap.getElem?_insert, Ne.symm reachable]
  have value : r.1 = .value (.lam "y1" (.app (.var "y") (.var "y1"))) := by
    unfold r t defs
    cbv
  obtain ⟨same, inside⟩ := evaluate_reads_reachable within closed agree { maxSteps := some 2 } {}
  exact ⟨within, closed, agree, value, same, inside _ r.2 (Prod.ext value rfl)⟩

end EagerLambda
