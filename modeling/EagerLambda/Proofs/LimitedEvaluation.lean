import EagerLambda.Evaluation

/-!
# The calls of a limited evaluation

`Ends` is evaluation as a set of rules, with or without a limit, whose counter of steps holds
numbers up to `most` and no larger ones. A derivation is the finite tree of the evaluations that
lead to an ending, so a term that is evaluated for ever has none, and neither has one that needs a
larger counter. `Calls` says which evaluation goes into which other one.

Each expansion and each reduction may put a far larger term in place of the one before, but it uses
up a step, and in between the terms get smaller. So under a limit no chain of evaluations goes on
for ever, every term has an ending, and the counter does not overflow (`limited_evaluation_ends`).
-/

namespace EagerLambda

namespace Progress

/-- The next step can be counted, and it is within the limit. -/
def Allowed (p : Progress) (maxSteps : Option Nat) (most : Nat) : Prop :=
  p.step.steps ≤ most ∧ ∀ m ∈ maxSteps, p.step.steps ≤ m

/-- The next step can be counted, and it is beyond the limit. -/
def Refused (p : Progress) (maxSteps : Option Nat) (most : Nat) : Prop :=
  p.step.steps ≤ most ∧ ∃ m ∈ maxSteps, m < p.step.steps

variable {p : Progress} {m most : Nat}

theorem Allowed.lt (allowed : p.Allowed (some m) most) : p.steps < m :=
  allowed.2 m rfl

theorem Refused.not_lt (refused : p.Refused (some m) most) : ¬ p.steps < m := by
  obtain ⟨-, n, ⟨⟩, beyond⟩ := refused
  exact Nat.not_lt.mpr (Nat.le_of_lt_succ beyond)

theorem Refused.steps_eq (refused : p.Refused (some m) most) (start : p.steps ≤ m) :
    p.step.steps = m + 1 := by
  have used := refused.not_lt
  simp only [step]
  omega

theorem allowed_or_refused (room : m < most) (start : p.steps ≤ m) :
    p.Allowed (some m) most ∨ p.Refused (some m) most := by
  have fits : p.step.steps ≤ most := Nat.le_trans (Nat.succ_le_succ start) room
  by_cases less : p.steps < m
  · refine Or.inl ⟨fits, ?_⟩
    rintro n ⟨⟩
    exact less
  · exact Or.inr ⟨fits, m, rfl, Nat.lt_succ_of_le (Nat.le_of_not_lt less)⟩

end Progress

namespace Term

/-- How the evaluation of a term ends and how far it has got then. -/
inductive Ends (defs : Bindings) (maxSteps : Option Nat) (most : Nat) :
    Term → Progress → Ending → Progress → Prop where
  | unbound {x : Name} {p : Progress} :
    defs[x]? = none → Ends defs maxSteps most (var x) p (.value (var x)) p
  | expand {x : Name} {body : Term} {p q : Progress} {e : Ending} :
    defs[x]? = some body → p.Allowed maxSteps most →
      Ends defs maxSteps most body (p.step.note (.expanded x)) e q →
        Ends defs maxSteps most (var x) p e q
  | expandRefused {x : Name} {body : Term} {p : Progress} :
    defs[x]? = some body → p.Refused maxSteps most →
      Ends defs maxSteps most (var x) p .outOfSteps p.step
  | lam (x : Name) (b : Term) (p : Progress) :
    Ends defs maxSteps most (lam x b) p (.value (lam x b)) p
  | function {f a : Term} {p q : Progress} :
    Ends defs maxSteps most f p .outOfSteps q →
      Ends defs maxSteps most (app f a) p .outOfSteps q
  | argument {f a f' : Term} {p p₁ q : Progress} :
    Ends defs maxSteps most f p (.value f') p₁ →
      Ends defs maxSteps most a p₁ .outOfSteps q →
        Ends defs maxSteps most (app f a) p .outOfSteps q
  | stuck {f a f' a' : Term} {p p₁ p₂ : Progress} :
    Ends defs maxSteps most f p (.value f') p₁ →
      Ends defs maxSteps most a p₁ (.value a') p₂ → (∀ x b, f' ≠ .lam x b) →
        Ends defs maxSteps most (app f a) p (.value (app f' a')) p₂
  | reduce {f a b a' : Term} {x : Name} {p p₁ p₂ q : Progress} {e : Ending} :
    Ends defs maxSteps most f p (.value (.lam x b)) p₁ →
      Ends defs maxSteps most a p₁ (.value a') p₂ → p₂.Allowed maxSteps most →
        Ends defs maxSteps most (applied x b a' p₂).1 (applied x b a' p₂).2 e q →
          Ends defs maxSteps most (app f a) p e q
  | reduceRefused {f a b a' : Term} {x : Name} {p p₁ p₂ : Progress} :
    Ends defs maxSteps most f p (.value (.lam x b)) p₁ →
      Ends defs maxSteps most a p₁ (.value a') p₂ → p₂.Refused maxSteps most →
        Ends defs maxSteps most (app f a) p .outOfSteps p₂.step

/-- The evaluation of the first term, begun with the first progress, goes into the second one. -/
inductive Calls (defs : Bindings) (maxSteps : Option Nat) (most : Nat) :
    Term × Progress → Term × Progress → Prop where
  | expand {x : Name} {body : Term} {p : Progress} :
    defs[x]? = some body → p.Allowed maxSteps most →
      Calls defs maxSteps most (var x, p) (body, p.step.note (.expanded x))
  | function (f a : Term) (p : Progress) : Calls defs maxSteps most (app f a, p) (f, p)
  | argument {f f' : Term} {p p₁ : Progress} (a : Term) :
    Ends defs maxSteps most f p (.value f') p₁ → Calls defs maxSteps most (app f a, p) (a, p₁)
  | reduce {f a b a' : Term} {x : Name} {p p₁ p₂ : Progress} :
    Ends defs maxSteps most f p (.value (.lam x b)) p₁ →
      Ends defs maxSteps most a p₁ (.value a') p₂ → p₂.Allowed maxSteps most →
        Calls defs maxSteps most (app f a, p) (applied x b a' p₂)

variable {defs : Bindings} {m most : Nat} {t f a f' a' : Term} {p p₁ p₂ q : Progress} {e : Ending}

/-! ### Endings under a limit -/

theorem runApplied_of_not_lam (notLam : ∀ x b, f' ≠ .lam x b) :
    runApplied defs m f' a' p = (.value (app f' a'), p) := by
  cases f' with
  | lam x b => exact absurd rfl (notLam x b)
  | var x => rfl
  | app g c => rfl

theorem run_app_of_values (function : f.run defs m p = (.value f', p₁))
    (argument : a.run defs m p₁ = (.value a', p₂)) :
    (app f a).run defs m p = runApplied defs m f' a' p₂ := by
  rw [run_app, function]
  dsimp only
  rw [argument]

theorem Ends.eq_run (ends : Ends defs (some m) most t p e q) : t.run defs m p = (e, q) := by
  induction ends with
  | unbound free => rw [run_var_of_none free]
  | expand bound allowed _ body => rw [run_var_of_some bound, if_pos allowed.lt, body]
  | expandRefused bound refused => rw [run_var_of_some bound, if_neg refused.not_lt]
  | lam x b p => rw [run_lam]
  | function _ function => rw [run_app, function]
  | argument _ _ function argument =>
    rw [run_app, function]
    dsimp only
    rw [argument]
  | stuck _ _ notLam function argument =>
    rw [run_app_of_values function argument, runApplied_of_not_lam notLam]
  | reduce _ _ allowed _ function argument reduced =>
    rw [run_app_of_values function argument, runApplied, if_pos allowed.lt, reduced]
  | reduceRefused _ _ refused function argument =>
    rw [run_app_of_values function argument, runApplied, if_neg refused.not_lt]

theorem Ends.steps_le (ends : Ends defs (some m) most t p e q) : p.steps ≤ q.steps := by
  have le := steps_le_run defs m t p
  rw [ends.eq_run] at le
  exact le

/-- A value comes within the limit, and otherwise one step more than that is counted. -/
theorem Ends.steps_bound (ends : Ends defs (some m) most t p e q) (start : p.steps ≤ m) :
    e ≠ .outOfSteps ∧ q.steps ≤ m ∨ e = .outOfSteps ∧ q.steps = m + 1 := by
  induction ends with
  | unbound _ => exact Or.inl ⟨by simp, start⟩
  | expand _ allowed _ body => exact body allowed.lt
  | expandRefused _ refused => exact Or.inr ⟨rfl, refused.steps_eq start⟩
  | lam x b p => exact Or.inl ⟨by simp, start⟩
  | function _ function => exact function start
  | argument _ _ function argument =>
    obtain ⟨-, le₁⟩ | ⟨⟨⟩, -⟩ := function start
    exact argument le₁
  | stuck _ _ _ function argument =>
    obtain ⟨-, le₁⟩ | ⟨⟨⟩, -⟩ := function start
    obtain ⟨-, le₂⟩ | ⟨⟨⟩, -⟩ := argument le₁
    exact Or.inl ⟨by simp, le₂⟩
  | reduce _ _ allowed _ _ _ reduced => exact reduced allowed.lt
  | reduceRefused _ _ refused function argument =>
    obtain ⟨-, le₁⟩ | ⟨⟨⟩, -⟩ := function start
    obtain ⟨-, le₂⟩ | ⟨⟨⟩, -⟩ := argument le₁
    exact Or.inr ⟨rfl, refused.steps_eq le₂⟩

theorem Ends.value_steps_le {v : Term} (ends : Ends defs (some m) most t p (.value v) q)
    (start : p.steps ≤ m) : q.steps ≤ m := by
  obtain ⟨-, le⟩ | ⟨⟨⟩, -⟩ := ends.steps_bound start
  exact le

/-- The ending of an application whose parts have values, given one for what it reduces to. -/
theorem Ends.runApplied (function : Ends defs (some m) most f p (.value f') p₁)
    (argument : Ends defs (some m) most a p₁ (.value a') p₂) (room : m < most)
    (start : p₂.steps ≤ m)
    (reduced : ∀ x b, f' = .lam x b → p₂.steps < m →
      let r := applied x b a' p₂
      Ends defs (some m) most r.1 r.2 (r.1.run defs m r.2).1 (r.1.run defs m r.2).2) :
    let r := runApplied defs m f' a' p₂
    Ends defs (some m) most (app f a) p r.1 r.2 := by
  cases f' with
  | var x => exact .stuck function argument (by simp)
  | app g c => exact .stuck function argument (by simp)
  | lam x b =>
    dsimp only [Term.runApplied]
    rcases Progress.allowed_or_refused room start with allowed | refused
    · rw [if_pos allowed.lt]
      exact .reduce function argument allowed (reduced x b rfl allowed.lt)
    · rw [if_neg refused.not_lt]
      exact .reduceRefused function argument refused

/-- Every term has an ending under a limit, the one that `run` finds. -/
theorem ends_of_run (run : t.run defs m p = (e, q)) (room : m < most) (start : p.steps ≤ m) :
    Ends defs (some m) most t p e q := by
  suffices found : Ends defs (some m) most t p (t.run defs m p).1 (t.run defs m p).2 by
    rw [run] at found
    exact found
  clear run
  revert start
  refine @run_induction defs m (fun t p => p.steps ≤ m →
    Ends defs (some m) most t p (t.run defs m p).1 (t.run defs m p).2) ?_ ?_ ?_ ?_ t p
  · intro x p free _
    rw [run_var_of_none free]
    exact .unbound free
  · intro x body p bound ih start
    rw [run_var_of_some bound]
    rcases Progress.allowed_or_refused room start with allowed | refused
    · rw [if_pos allowed.lt]
      exact .expand bound allowed (ih allowed.lt allowed.lt)
    · rw [if_neg refused.not_lt]
      exact .expandRefused bound refused
  · intro x b p _
    rw [run_lam]
    exact .lam x b p
  · intro f a p ihf iha ihr start
    have function := ihf start
    rcases hf : f.run defs m p with ⟨f' | _, p₁⟩ <;> rw [hf] at function
    · have le₁ := function.value_steps_le start
      have argument := iha f' p₁ hf le₁
      rcases ha : a.run defs m p₁ with ⟨a' | _, p₂⟩ <;> rw [ha] at argument
      · have le₂ := argument.value_steps_le le₁
        rw [run_app_of_values hf ha]
        apply Ends.runApplied function argument room le₂
        rintro x b rfl less
        exact ihr x b p₁ a' p₂ hf ha less less
      · rw [run_app, hf]
        dsimp only
        rw [ha]
        exact .argument function argument
    · rw [run_app, hf]
      exact .function function

/-! ### Chains of calls -/

/-- A call is made with fewer steps left, or with as many and a smaller term. -/
theorem left_of_calls {c d : Term × Progress} (calls : Calls defs (some m) most c d) :
    Prod.Lex (· < ·) (· < ·) (m - d.2.steps, d.1.size) (m - c.2.steps, c.1.size) := by
  cases calls with
  | expand _ allowed =>
    have within := allowed.lt
    apply Prod.Lex.left
    simp only [Progress.step, Progress.note]
    omega
  | function f a p => exact measure_le_lt (Nat.le_refl _) (by simp only [size]; omega)
  | argument a function =>
    have le := function.steps_le
    exact measure_le_lt (Nat.sub_le_sub_left le m) (by simp only [size]; omega)
  | reduce function argument allowed =>
    have le₁ := function.steps_le
    have le₂ := argument.steps_le
    have within := allowed.lt
    apply Prod.Lex.left
    simp only [applied]
    omega

theorem wellFounded_calls (defs : Bindings) (m most : Nat) :
    WellFounded fun called caller => Calls defs (some m) most caller called :=
  Subrelation.wf left_of_calls
    (InvImage.wf (fun c : Term × Progress => (m - c.2.steps, c.1.size))
      (Prod.lex Nat.lt_wfRel Nat.lt_wfRel).wf)

/-- Without a limit a name that is bound to itself has no ending, however large the counter is. -/
theorem not_ends_of_self_reference {x : Name} (bound : defs[x]? = some (var x)) (most : Nat)
    (p : Progress) (e : Ending) (q : Progress) : ¬ Ends defs none most (var x) p e q := by
  intro ends
  generalize start : var x = t at ends
  induction ends with
  | unbound free =>
    obtain ⟨⟩ := start
    exact absurd (free.symm.trans bound) (by simp)
  | expand other _ _ ih =>
    obtain ⟨⟩ := start
    exact ih (Option.some.inj (bound.symm.trans other))
  | expandRefused _ refused =>
    obtain ⟨-, n, ⟨⟩, -⟩ := refused
  | lam | function | argument | stuck | reduce | reduceRefused => cases start

end Term

/-- A limited evaluation always ends, whatever the definitions are, if its counter can hold one step
more than the limit. No chain of calls goes on for ever, and every term has exactly one ending, with
a value or with the limit exceeded. With `m + 1` for `most` this says that no more than `m + 1`
steps are ever counted, and with the largest number of 64 bits that a counter of this width does
not overflow. -/
theorem limited_evaluation_ends (defs : Bindings) {m most : Nat} (room : m < most) :
    WellFounded (fun called caller => Term.Calls defs (some m) most caller called) ∧
      ∀ (t : Term) (w : Workspace), ∃ e p,
        Term.Ends defs (some m) most t { toWorkspace := w } e p ∧
        (∀ e' p', Term.Ends defs (some m) most t { toWorkspace := w } e' p' → e' = e ∧ p' = p) ∧
        p.steps ≤ m + 1 ∧
        ∀ limits : Limits, limits.maxSteps = some m →
          (∃ v, e = .value v ∧
            evaluate defs limits t w = (.value v, p.note (.finished p.steps))) ∨
          e = .outOfSteps ∧ evaluate defs limits t w = (.exceeded ⟨m⟩, p) := by
  refine ⟨Term.wellFounded_calls defs m most, ?_⟩
  intro t w
  rcases run : t.run defs m { toWorkspace := w } with ⟨e, p⟩
  have ends := Term.ends_of_run run room (Nat.zero_le m)
  refine ⟨e, p, ends, ?_, ?_, ?_⟩
  · intro e' p' other
    have same := other.eq_run.symm.trans run
    exact Prod.mk.inj same
  · rcases ends.steps_bound (Nat.zero_le m) with ⟨-, le⟩ | ⟨-, eq⟩ <;> omega
  · intro limits limited
    have budget : limits.budget = m := by rw [Limits.budget, limited, Option.getD_some]
    rw [evaluate, budget, run, limited]
    cases e with
    | value v => exact Or.inl ⟨v, rfl, rfl⟩
    | outOfSteps => exact Or.inr ⟨rfl, rfl⟩

/-- The definitions of `ping` and `pong` are each other. With a limit of three, the fourth expansion
is counted in 64 bits and refused. -/
theorem cyclic_definitions_end :
    let defs : Bindings := (∅ : Bindings).insert "ping" (.var "pong") |>.insert "pong" (.var "ping")
    3 < UInt64.size - 1 ∧
      ∃ p, Term.Ends defs (some 3) (UInt64.size - 1) (.var "ping") {} .outOfSteps p ∧
        p.steps ≤ 4 ∧
        evaluate defs { maxSteps := some 3 } (.var "ping") {} = (.exceeded ⟨3⟩, p) := by
  intro defs
  have room : 3 < UInt64.size - 1 := by decide
  have ping : defs["ping"]? = some (.var "pong") := by
    simp only [defs, Std.ExtTreeMap.getElem?_insert]
    rfl
  have pong : defs["pong"]? = some (.var "ping") := by simp [defs]
  have refused : (evaluate defs { maxSteps := some 3 } (.var "ping") {}).1 = .exceeded ⟨3⟩ := by
    simp [evaluate, Limits.budget, Term.run_var_of_some ping, Term.run_var_of_some pong,
      Progress.step, Progress.note]
  obtain ⟨e, p, ends, -, le, outcome⟩ := (limited_evaluation_ends defs room).2 (.var "ping") {}
  rcases outcome { maxSteps := some 3 } rfl with ⟨v, -, value⟩ | ⟨rfl, exceeded⟩
  · rw [value] at refused
    exact absurd refused (by simp)
  · exact ⟨room, p, ends, le, exceeded⟩

end EagerLambda
