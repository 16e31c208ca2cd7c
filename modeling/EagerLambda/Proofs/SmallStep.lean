import EagerLambda.Evaluation
import EagerLambda.Proofs.Substitution

/-!
# Single steps

`Term.step?` takes one step of a term, the leftmost one outside functions. `run_eq_step` shows that
a run is one step after another until the term stops or the budget is used up, so whatever a step
keeps a run keeps too.
-/

namespace EagerLambda.Term

/-- The application of the stopped term `f` to the stopped term `a`. -/
def reduce? (p : Progress) (f a : Term) : Option (Term × Progress) :=
  match f with
  | lam x b => some (applied x b a p)
  | _ => none

/-- The term and the progress after the next step, if there is one: a bound name is expanded, and
an application steps in its function, then in its argument, and is then reduced. -/
def step? (defs : Bindings) (p : Progress) : Term → Option (Term × Progress)
  | var x => defs[x]?.map fun body => (body, p.step.note (.expanded x))
  | lam _ _ => none
  | app f a =>
    match step? defs p f with
    | some (f', p') => some (app f' a, p')
    | none =>
      match step? defs p a with
      | some (a', p') => some (app f a', p')
      | none => f.reduce? p a

section
variable {defs : Bindings} {p q : Progress} {f a : Term}

theorem step?_app_left {f' : Term} (h : f.step? defs p = some (f', q)) :
    (app f a).step? defs p = some (app f' a, q) := by
  rw [step?, h]

theorem step?_app_right {a' : Term} (hf : f.step? defs p = none)
    (h : a.step? defs p = some (a', q)) : (app f a).step? defs p = some (app f a', q) := by
  rw [step?, hf, h]

theorem step?_app_stopped (hf : f.step? defs p = none) (ha : a.step? defs p = none) :
    (app f a).step? defs p = f.reduce? p a := by
  rw [step?, hf, ha]

end

theorem step?_app_eq_none {defs : Bindings} {p : Progress} {f a : Term}
    (h : (app f a).step? defs p = none) :
    f.step? defs p = none ∧ a.step? defs p = none ∧ f.reduce? p a = none := by
  cases hf : f.step? defs p with
  | some r => rw [step?_app_left hf] at h; exact absurd h (by simp)
  | none =>
    cases ha : a.step? defs p with
    | some r => rw [step?_app_right hf ha] at h; exact absurd h (by simp)
    | none => exact ⟨rfl, rfl, step?_app_stopped hf ha ▸ h⟩

theorem reduce?_eq_some {p p' : Progress} {f a t : Term} (h : f.reduce? p a = some (t, p')) :
    ∃ x b, f = lam x b ∧ applied x b a p = (t, p') := by
  cases f with
  | lam x b => exact ⟨x, b, rfl, Option.some.inj h⟩
  | var x => exact absurd h (by simp [reduce?])
  | app g c => exact absurd h (by simp [reduce?])

/-- Whether a term can step does not depend on the progress so far. -/
theorem step?_isSome_congr (defs : Bindings) (t : Term) (p q : Progress) :
    (t.step? defs p).isSome = (t.step? defs q).isSome := by
  induction t with
  | var x => simp [step?]
  | lam x b => rfl
  | app f a ihf iha =>
    cases hf : f.step? defs p with
    | some r =>
      rw [hf, Option.isSome_some] at ihf
      obtain ⟨r', hf'⟩ := Option.isSome_iff_exists.mp ihf.symm
      rw [step?_app_left hf, step?_app_left hf']
      rfl
    | none =>
      rw [hf, Option.isSome_none] at ihf
      have hf' : f.step? defs q = none := by simpa using ihf.symm
      cases ha : a.step? defs p with
      | some r =>
        rw [ha, Option.isSome_some] at iha
        obtain ⟨r', ha'⟩ := Option.isSome_iff_exists.mp iha.symm
        rw [step?_app_right hf ha, step?_app_right hf' ha']
        rfl
      | none =>
        rw [ha, Option.isSome_none] at iha
        have ha' : a.step? defs q = none := by simpa using iha.symm
        rw [step?_app_stopped hf ha, step?_app_stopped hf' ha']
        cases f <;> rfl

theorem step?_eq_none_congr {defs : Bindings} {t : Term} {p : Progress} (q : Progress)
    (h : t.step? defs p = none) : t.step? defs q = none := by
  have same := step?_isSome_congr defs t p q
  rw [h] at same
  simpa using same.symm

theorem step_induction {defs : Bindings} {motive : Term → Progress → Term → Progress → Prop}
    (expand : ∀ x body p, defs[x]? = some body →
      motive (var x) p body (p.step.note (.expanded x)))
    (left : ∀ f a p f' p', f.step? defs p = some (f', p') → motive f p f' p' →
      motive (app f a) p (app f' a) p')
    (right : ∀ f a p a' p', f.step? defs p = none → a.step? defs p = some (a', p') →
      motive a p a' p' → motive (app f a) p (app f a') p')
    (reduce : ∀ x b a p, a.step? defs p = none →
      motive (app (lam x b) a) p (applied x b a p).1 (applied x b a p).2)
    {t t' : Term} {p p' : Progress} (h : t.step? defs p = some (t', p')) : motive t p t' p' := by
  induction t generalizing t' p' with
  | var x =>
    rw [step?] at h
    obtain ⟨body, bound, same⟩ := Option.map_eq_some_iff.mp h
    obtain ⟨rfl, rfl⟩ := Prod.mk.inj same
    exact expand x body p bound
  | lam x b => exact absurd h (by simp [step?])
  | app f a ihf iha =>
    cases hf : f.step? defs p with
    | some r =>
      obtain ⟨f', q⟩ := r
      rw [step?_app_left hf] at h
      obtain ⟨rfl, rfl⟩ := Prod.mk.inj (Option.some.inj h)
      exact left f a p f' q hf (ihf hf)
    | none =>
      cases ha : a.step? defs p with
      | some r =>
        obtain ⟨a', q⟩ := r
        rw [step?_app_right hf ha] at h
        obtain ⟨rfl, rfl⟩ := Prod.mk.inj (Option.some.inj h)
        exact right f a p a' q hf ha (iha ha)
      | none =>
        rw [step?_app_stopped hf ha] at h
        obtain ⟨x, b, rfl, same⟩ := reduce?_eq_some h
        have reduced := reduce x b a p ha
        rw [same] at reduced
        exact reduced

theorem steps_step? {defs : Bindings} {t t' : Term} {p p' : Progress}
    (h : t.step? defs p = some (t', p')) : p'.steps = p.steps + 1 := by
  refine step_induction (motive := fun _ p _ p' => p'.steps = p.steps + 1) ?_ ?_ ?_ ?_ h
  · intro x body p _
    rfl
  · intro f a p f' p' _ ih
    exact ih
  · intro f a p a' p' _ _ ih
    exact ih
  · intro x b a p _
    rfl

theorem le_step? {defs : Bindings} {t t' : Term} {p p' : Progress}
    (h : t.step? defs p = some (t', p')) : p.supply.Le p'.supply := by
  refine step_induction (motive := fun _ p _ p' => p.supply.Le p'.supply) ?_ ?_ ?_ ?_ h
  · intro x body p _
    exact .refl _
  · intro f a p f' p' _ ih
    exact ih
  · intro f a p a' p' _ _ ih
    exact ih
  · intro x b a p _
    exact le_substitute b x a (p.toWorkspace.record (.reduced x (p.steps + 1)))

/-! ### Runs -/

/-- A run takes the next step, if it may, and goes on from there. -/
theorem run_eq_step (defs : Bindings) (budget : Nat) (t : Term) (p : Progress) :
    t.run defs budget p =
      match t.step? defs p with
      | none => (.value t, p)
      | some (t', p') =>
        if p.steps < budget then t'.run defs budget p' else (.outOfSteps, p.step) := by
  induction t generalizing p with
  | var x =>
    cases bound : defs[x]? with
    | none => rw [run_var_of_none bound, step?, bound]; rfl
    | some body => rw [run_var_of_some bound, step?, bound]; rfl
  | lam x b => rw [run_lam, step?]
  | app f a ihf iha =>
    cases hf : f.step? defs p with
    | some r =>
      obtain ⟨f', q⟩ := r
      rw [step?_app_left hf, run_app, ihf, hf]
      dsimp only
      by_cases allowed : p.steps < budget
      · rw [if_pos allowed, if_pos allowed, run_app]
      · rw [if_neg allowed, if_neg allowed]
    | none =>
      have stopped (q : Progress) : f.run defs budget q = (.value f, q) := by
        rw [ihf, step?_eq_none_congr q hf]
      rw [run_app, stopped]
      dsimp only
      cases ha : a.step? defs p with
      | some r =>
        obtain ⟨a', q⟩ := r
        rw [step?_app_right hf ha, iha, ha]
        dsimp only
        by_cases allowed : p.steps < budget
        · rw [if_pos allowed, if_pos allowed, run_app, stopped]
        · rw [if_neg allowed, if_neg allowed]
      | none =>
        rw [step?_app_stopped hf ha, iha, ha]
        dsimp only
        cases f <;> rfl

theorem run_of_step?_eq_none {defs : Bindings} {t : Term} {p : Progress}
    (h : t.step? defs p = none) (budget : Nat) : t.run defs budget p = (.value t, p) := by
  rw [run_eq_step, h]

theorem run_of_step?_eq_some {defs : Bindings} {t t' : Term} {p p' : Progress} {budget : Nat}
    (h : t.step? defs p = some (t', p')) (allowed : p.steps < budget) :
    t.run defs budget p = t'.run defs budget p' := by
  rw [run_eq_step, h]
  exact if_pos allowed

theorem run_of_budget_le {defs : Bindings} {t t' : Term} {p p' : Progress} {budget : Nat}
    (h : t.step? defs p = some (t', p')) (used : budget ≤ p.steps) :
    t.run defs budget p = (.outOfSteps, p.step) := by
  rw [run_eq_step, h]
  exact if_neg (Nat.not_lt.mpr used)

end EagerLambda.Term
