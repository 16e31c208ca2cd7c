import EagerLambda.Substitution

/-!
# Evaluation

Applicative order: the function of an application is evaluated first, then the
argument, then the function is applied; the body of a function is never entered
before that. A bound name is replaced by its definition. Functions and unbound
names are values, and so is the application to a value of a value that is not a
function.

Every expansion of a bound name and every application of a function is a step.
`Term.run` allows a fixed number of steps, so it ends on every term. `evaluate`
runs a term under `Limits` and reports the end.
-/

namespace EagerLambda

/-- The definitions of the bound names. -/
abbrev Bindings := Std.ExtTreeMap Name Term

structure Progress extends Workspace where
  /-- The steps begun. A step that is refused is counted too. -/
  steps : Nat := 0

namespace Progress

def note (p : Progress) (e : Event) : Progress :=
  { p with toWorkspace := p.toWorkspace.record e }

def step (p : Progress) : Progress :=
  { p with steps := p.steps + 1 }

end Progress

/-- How a run of a fixed number of steps ends. -/
inductive Ending where
  | value (t : Term)
  /-- One step more was needed than allowed. -/
  | outOfSteps
  deriving DecidableEq, Repr

namespace Term

theorem measure_le_lt {a b m n : Nat} (h : a ≤ b) (h' : m < n) :
    Prod.Lex (· < ·) (· < ·) (a, m) (b, n) := by
  rcases Nat.lt_or_eq_of_le h with h | rfl
  · exact .left _ _ h
  · exact .right _ h'

/-- What `run` gives from `p`, with the fact that steps are only added. -/
structure RunFrom (p : Progress) where
  ending : Ending
  progress : Progress
  steps_le : p.steps ≤ progress.steps

/-- `run`, with the fact that steps are only added. -/
def runFrom (defs : Bindings) (budget : Nat) (t : Term) (p : Progress) : RunFrom p :=
  match t with
  | var x =>
    match defs[x]? with
    | none => ⟨.value (var x), p, Nat.le_refl _⟩
    | some body =>
      if _hstep : p.steps < budget then
        match runFrom defs budget body (p.step.note (.expanded x)) with
        | ⟨e, p₁, h₁⟩ => ⟨e, p₁, Nat.le_of_succ_le h₁⟩
      else ⟨.outOfSteps, p.step, Nat.le_succ _⟩
  | lam x b => ⟨.value (lam x b), p, Nat.le_refl _⟩
  | app f a =>
    match runFrom defs budget f p with
    | ⟨.outOfSteps, p₁, h₁⟩ => ⟨.outOfSteps, p₁, h₁⟩
    | ⟨.value f', p₁, h₁⟩ =>
      match runFrom defs budget a p₁ with
      | ⟨.outOfSteps, p₂, h₂⟩ => ⟨.outOfSteps, p₂, Nat.le_trans h₁ h₂⟩
      | ⟨.value a', p₂, h₂⟩ =>
        match f' with
        | lam x b =>
          if _hstep : p₂.steps < budget then
            match b.substitute x a' (p₂.toWorkspace.record (.reduced x (p₂.steps + 1))) with
            | (t', w) =>
              match runFrom defs budget t' { toWorkspace := w, steps := p₂.steps + 1 } with
              | ⟨e, p₃, h₃⟩ =>
                ⟨e, p₃, Nat.le_trans (Nat.le_trans h₁ h₂) (Nat.le_of_succ_le h₃)⟩
          else ⟨.outOfSteps, p₂.step, Nat.le_succ_of_le (Nat.le_trans h₁ h₂)⟩
        | _ => ⟨.value (app f' a'), p₂, Nat.le_trans h₁ h₂⟩
termination_by (budget - p.steps, t.size)
decreasing_by
  · apply Prod.Lex.left
    simp only [Progress.step, Progress.note]
    omega
  · exact measure_le_lt (Nat.le_refl _) (by simp only [size]; omega)
  · exact measure_le_lt (by omega) (by simp only [size]; omega)
  · apply Prod.Lex.left
    omega

/-- Evaluates a term with at most `budget` steps, counting those of `p`. -/
def run (defs : Bindings) (budget : Nat) (t : Term) (p : Progress) : Ending × Progress :=
  let r := runFrom defs budget t p
  (r.ending, r.progress)

/-! ### The cases of a run -/

theorem run_var_of_none {defs : Bindings} {x : Name} (h : defs[x]? = none) (budget : Nat)
    (p : Progress) : (var x).run defs budget p = (.value (var x), p) := by
  simp only [run]
  rw [runFrom]
  simp only [h]

theorem run_var_of_some {defs : Bindings} {x : Name} {body : Term} (h : defs[x]? = some body)
    (budget : Nat) (p : Progress) :
    (var x).run defs budget p =
      if p.steps < budget then body.run defs budget (p.step.note (.expanded x))
      else (.outOfSteps, p.step) := by
  simp only [run]
  rw [runFrom]
  simp only [h]
  split <;> rfl

theorem run_lam (defs : Bindings) (budget : Nat) (x : Name) (b : Term) (p : Progress) :
    (lam x b).run defs budget p = (.value (lam x b), p) := by
  simp only [run]
  rw [runFrom]

/-- The term and the progress with which a run goes on after the application of
`lam x b` to the value `a`. -/
def applied (x : Name) (b a : Term) (p : Progress) : Term × Progress :=
  let r := b.substitute x a (p.toWorkspace.record (.reduced x (p.steps + 1)))
  (r.1, { toWorkspace := r.2, steps := p.steps + 1 })

/-- The run of the application of the value `f` to the value `a`. -/
def runApplied (defs : Bindings) (budget : Nat) (f a : Term) (p : Progress) :
    Ending × Progress :=
  match f with
  | lam x b =>
    if p.steps < budget then (applied x b a p).1.run defs budget (applied x b a p).2
    else (.outOfSteps, p.step)
  | _ => (.value (app f a), p)

theorem run_app (defs : Bindings) (budget : Nat) (f a : Term) (p : Progress) :
    (app f a).run defs budget p =
      match f.run defs budget p with
      | (.outOfSteps, p₁) => (.outOfSteps, p₁)
      | (.value f', p₁) =>
        match a.run defs budget p₁ with
        | (.outOfSteps, p₂) => (.outOfSteps, p₂)
        | (.value a', p₂) => runApplied defs budget f' a' p₂ := by
  simp only [run, runApplied, applied]
  rw [runFrom]
  rcases runFrom defs budget f p with ⟨f' | _, p₁, h₁⟩ <;> dsimp only
  rcases runFrom defs budget a p₁ with ⟨a' | _, p₂, h₂⟩ <;> dsimp only
  cases f' <;> dsimp only
  split <;> rfl

theorem steps_le_run (defs : Bindings) (budget : Nat) (t : Term) (p : Progress) :
    p.steps ≤ (t.run defs budget p).2.steps :=
  (runFrom defs budget t p).steps_le

theorem run_induction {defs : Bindings} {budget : Nat} {motive : Term → Progress → Prop}
    (unbound : ∀ x p, defs[x]? = none → motive (var x) p)
    (expanded : ∀ x body p, defs[x]? = some body →
      (p.steps < budget → motive body (p.step.note (.expanded x))) → motive (var x) p)
    (lam : ∀ x b p, motive (lam x b) p)
    (app : ∀ f a p, motive f p →
      (∀ f' p₁, f.run defs budget p = (.value f', p₁) → motive a p₁) →
      (∀ x b p₁ a' p₂, f.run defs budget p = (.value (.lam x b), p₁) →
        a.run defs budget p₁ = (.value a', p₂) → p₂.steps < budget →
        motive (applied x b a' p₂).1 (applied x b a' p₂).2) →
      motive (app f a) p)
    (t : Term) (p : Progress) : motive t p := by
  induction hn : budget - p.steps using Nat.strongRecOn generalizing t p with
  | _ n ih =>
    subst hn
    suffices ∀ (t : Term) (q : Progress), p.steps ≤ q.steps → motive t q from
      this t p (Nat.le_refl _)
    intro t
    induction t with
    | var x =>
      intro q hq
      cases hx : defs[x]? with
      | none => exact unbound x q hx
      | some body =>
        exact expanded x body q hx fun h => ih _ (by simp [Progress.step, Progress.note]; omega) _ _ rfl
    | lam x b => exact fun q _ => lam x b q
    | app f a hf ha =>
      intro q hq
      refine app f a q (hf q hq) (fun f' p₁ h₁ => ha p₁ ?_) (fun x b p₁ a' p₂ h₁ h₂ h => ?_)
      · have := steps_le_run defs budget f q
        rw [h₁] at this
        exact Nat.le_trans hq this
      · have le₁ := steps_le_run defs budget f q
        have le₂ := steps_le_run defs budget a p₁
        rw [h₁] at le₁
        rw [h₂] at le₂
        exact ih _ (by simp only [applied] at *; omega) _ _ rfl

end Term

inductive Outcome where
  | value (t : Term)
  | exceeded (e : LimitExceeded)
  /-- There is no limit, and the evaluation takes longer than it was followed. -/
  | unfinished
  deriving DecidableEq, Repr

/-- Evaluates a term against the definitions of the bound names. The progress
given with the outcome starts from `w` and counts the steps of this evaluation
only. -/
def evaluate (defs : Bindings) (limits : Limits) (t : Term) (w : Workspace) :
    Outcome × Progress :=
  match t.run defs limits.budget { toWorkspace := w } with
  | (.value v, p) => (.value v, p.note (.finished p.steps))
  | (.outOfSteps, p) =>
    match limits.maxSteps with
    | some maxSteps => (.exceeded ⟨maxSteps⟩, p)
    | none => (.unfinished, p)

end EagerLambda
