import EagerLambda.Proofs.Hygiene
import EagerLambda.Proofs.SmallStep

/-!
# Evaluation and the nameless calculus

If no name that a user writes ends in a digit, then evaluation is evaluation of nameless terms,
whatever names a session has made before (`evaluate_eq_nameless`).

The invariant is `Clean`: every name of the term was written by the user or has been made from one
that was, and no free name has been made. `clean_step` shows that a step keeps it and is a step of
the nameless calculus.
-/

namespace EagerLambda

def Name.endsInDigit (x : Name) : Bool :=
  x.toList.getLast?.any Char.isDigit

theorem Name.endsInDigit_numbered (base : Name) (k : Nat) :
    (base.numbered k).endsInDigit = true := by
  have nonempty : Nat.toDigits 10 k ≠ [] := Nat.toDigits_ne_nil
  rw [endsInDigit, toList_numbered, List.getLast?_append_of_ne_nil _ nonempty,
    List.getLast?_eq_getLast_of_ne_nil nonempty, Option.any_some]
  exact Nat.isDigit_of_mem_toDigits (by decide) (by decide) (List.getLast_mem nonempty)

theorem Name.ne_numbered {x : Name} (plain : x.endsInDigit = false) (base : Name) (k : Nat) :
    x ≠ base.numbered k := by
  rintro rfl
  rw [endsInDigit_numbered] at plain
  exact absurd plain (by decide)

def Term.Plain (t : Term) : Prop :=
  ∀ x ∈ t.names, x.endsInDigit = false

/-- The name does not end in a digit, or the supply has made it from one that does not. -/
def Supply.Known (s : Supply) (z : Name) : Prop :=
  z.endsInDigit = false ∨
    ∃ base k, base.endsInDigit = false ∧ 0 < k ∧ k ≤ s.count base ∧ z = base.numbered k

theorem Supply.Known.of_le {s s' : Supply} {z : Name} (le : s.Le s') (known : s.Known z) :
    s'.Known z := by
  rcases known with plain | ⟨base, k, plain, pos, below, same⟩
  · exact Or.inl plain
  · exact Or.inr ⟨base, k, plain, pos, Nat.le_trans below (le base), same⟩

/-- A known name cannot be made again from a name that does not end in a digit. -/
theorem Supply.Known.ne_numbered {s : Supply} {z base : Name} {k : Nat} (known : s.Known z)
    (plain : base.endsInDigit = false) (above : s.count base < k) : z ≠ base.numbered k := by
  rintro rfl
  rcases known with unnumbered | ⟨other, j, otherPlain, pos, below, same⟩
  · exact Name.ne_numbered unnumbered base k rfl
  · rcases Name.eq_or_numbered_of_numbered_eq (by omega) pos same with
      ⟨rfl, rfl⟩ | ⟨m, -, numbered, -⟩ | ⟨m, -, numbered, -⟩
    · omega
    · exact Name.ne_numbered otherPlain base m numbered
    · exact Name.ne_numbered plain other m numbered

namespace Term

/-- Every name of the term is known, and its free names do not end in digits. -/
structure Clean (s : Supply) (t : Term) : Prop where
  names : ∀ z ∈ t.names, s.Known z
  free : ∀ z, t.Free z → z.endsInDigit = false

namespace Clean

variable {s s' : Supply} {t f a b v : Term} {x : Name}

theorem of_plain (plain : t.Plain) : Clean s t where
  names z mem := Or.inl (plain z mem)
  free z free := plain z (names_of_free free)

theorem of_le (le : s.Le s') (clean : Clean s t) : Clean s' t where
  names z mem := (clean.names z mem).of_le le
  free := clean.free

theorem app (function : Clean s f) (argument : Clean s a) : Clean s (app f a) where
  names z mem := by
    rcases List.mem_append.mp mem with mem | mem
    · exact function.names z mem
    · exact argument.names z mem
  free z free := by
    rcases free with free | free
    · exact function.free z free
    · exact argument.free z free

theorem left (clean : Clean s (.app f a)) : Clean s f where
  names z mem := clean.names z (List.mem_append_left _ mem)
  free z free := clean.free z (Or.inl free)

theorem right (clean : Clean s (.app f a)) : Clean s a where
  names z mem := clean.names z (List.mem_append_right _ mem)
  free z free := clean.free z (Or.inr free)

theorem hygienic (function : Clean s (lam x b)) (argument : Clean s v) : Hygienic b x v s where
  names := by
    rintro z mem ⟨base, k, free, above, same⟩
    have known := function.names z (List.mem_cons_of_mem x mem)
    exact known.ne_numbered (argument.free base free) above same
  target := by
    rintro ⟨base, k, free, above, same⟩
    have known := function.names x List.mem_cons_self
    exact known.ne_numbered (argument.free base free) above same
  apart base c k _ free _ := Name.ne_numbered (argument.free c free) base k

theorem substitute {w : Workspace} (function : Clean w.supply (lam x b))
    (argument : Clean w.supply v) :
    Clean (b.substitute x v w).2.supply (b.substitute x v w).1 where
  names z mem := by
    have le := b.le_substitute x v w
    rcases (function.hygienic argument).mem_names_substitute mem with old | value | made
    · exact (function.names z (List.mem_cons_of_mem x old)).of_le le
    · exact (argument.names z value).of_le le
    · obtain ⟨base, k, free, pos, below, same⟩ := made
      exact Or.inr ⟨base, k, argument.free base free, pos, below, same⟩
  free z free := by
    rcases free_substitute free with ⟨body, other⟩ | value
    · exact function.free z ⟨other, body⟩
    · exact argument.free z value

end Clean

end Term

def Bindings.Plain (defs : Bindings) : Prop :=
  ∀ (x : Name) (body : Term), defs[x]? = some body → body.Plain

def Bindings.nameless (defs : Bindings) (x : Name) : Option Nameless :=
  defs[x]?.map (Term.nameless [])

namespace Term

theorem nameless_stopped {defs : Bindings} {t : Term} {p : Progress} (h : t.step? defs p = none) :
    (t.nameless []).step? defs.nameless = none := by
  induction t with
  | var x =>
    rw [nameless_var_of_not_mem (by simp), Nameless.step?, Bindings.nameless]
    simpa [step?] using h
  | lam x b => rfl
  | app f a ihf iha =>
    obtain ⟨function, argument, stuck⟩ := step?_app_eq_none h
    rw [nameless, Nameless.step?_app_stopped (ihf function) (iha argument)]
    cases f with
    | lam x b => exact absurd stuck (by simp [reduce?])
    | var x => rw [nameless_var_of_not_mem (by simp), Nameless.reduce?]; simp
    | app g c => rfl

/-- A step from a clean term leads to a clean term and is a step of the nameless calculus. -/
theorem clean_step {defs : Bindings} (plainDefs : defs.Plain) {t t' : Term} {p p' : Progress}
    (h : t.step? defs p = some (t', p')) (clean : Clean p.supply t) :
    Clean p'.supply t' ∧ (t.nameless []).step? defs.nameless = some (t'.nameless []) := by
  revert clean
  refine step_induction (motive := fun t p t' p' => Clean p.supply t →
    Clean p'.supply t' ∧ (t.nameless []).step? defs.nameless = some (t'.nameless [])) ?_ ?_ ?_ ?_ h
  · intro x body p bound _
    refine ⟨.of_plain (plainDefs x body bound), ?_⟩
    rw [nameless_var_of_not_mem (by simp), Nameless.step?, Bindings.nameless, bound,
      Option.map_some]
  · intro f a p f' p' step ih clean
    obtain ⟨function, stepped⟩ := ih clean.left
    exact ⟨function.app (clean.right.of_le (le_step? step)), Nameless.step?_app_left stepped⟩
  · intro f a p a' p' stopped step ih clean
    obtain ⟨argument, stepped⟩ := ih clean.right
    exact ⟨(clean.left.of_le (le_step? step)).app argument,
      Nameless.step?_app_right (nameless_stopped stopped) stepped⟩
  · intro x b a p stopped clean
    have hygienic : Hygienic b x a p.supply := clean.left.hygienic clean.right
    refine ⟨Clean.substitute clean.left clean.right, ?_⟩
    rw [nameless, Nameless.step?_app_stopped rfl (nameless_stopped stopped), nameless]
    have reduced := hygienic.nameless_substitute
      (w := p.toWorkspace.record (.reduced x (p.steps + 1))) [] [] (by simp) (by simp)
    exact congrArg some reduced.symm

end Term

/-- A run as the nameless calculus sees it: the value, if there is one, and the steps since
`start`. -/
def Ending.nameless? (start : Nat) : Ending × Progress → Option (Nameless × Nat)
  | (.value v, p) => some (v.nameless [], p.steps - start)
  | (.outOfSteps, _) => none

theorem Term.run_nameless_of_stopped {defs : Bindings} {t : Term} {p : Progress}
    (stopped : t.step? defs p = none) (budget n : Nat) :
    Ending.nameless? p.steps (t.run defs budget p) = (t.nameless []).run defs.nameless n := by
  rw [run_of_step?_eq_none stopped, Nameless.run_of_step?_eq_none (nameless_stopped stopped),
    Ending.nameless?, Nat.sub_self]

theorem Term.run_nameless {defs : Bindings} (plainDefs : defs.Plain) {t : Term} {p : Progress}
    (clean : Clean p.supply t) (n : Nat) :
    Ending.nameless? p.steps (t.run defs (p.steps + n) p) =
      (t.nameless []).run defs.nameless n := by
  induction n generalizing t p with
  | zero =>
    cases step : t.step? defs p with
    | none => exact run_nameless_of_stopped step _ _
    | some r =>
      obtain ⟨t', p'⟩ := r
      obtain ⟨-, stepped⟩ := clean_step plainDefs step clean
      rw [Nat.add_zero, run_of_budget_le step (Nat.le_refl _),
        Nameless.run_zero_of_step?_eq_some stepped]
      rfl
  | succ n ih =>
    cases step : t.step? defs p with
    | none => exact run_nameless_of_stopped step _ _
    | some r =>
      obtain ⟨t', p'⟩ := r
      obtain ⟨cleanAfter, stepped⟩ := clean_step plainDefs step clean
      have steps := steps_step? step
      have budget : p.steps + (n + 1) = p'.steps + n := by omega
      rw [Nameless.run_succ_of_step?_eq_some stepped, ← ih cleanAfter,
        run_of_step?_eq_some step (by omega), budget]
      have added := steps_le_run defs (p'.steps + n) t' p'
      generalize t'.run defs (p'.steps + n) p' = r at added ⊢
      rcases r with ⟨v | _, q⟩
      · -- Counted from the earlier start, the rest of the run is one step longer.
        have longer : q.steps - p.steps = q.steps - p'.steps + 1 := by
          change p'.steps ≤ q.steps at added
          omega
        simp only [Ending.nameless?, Option.map_some, longer]
      · rfl

/-- What the nameless calculus can see of an evaluation: the value up to the names of its
parameters, the steps to it, and why there is no value. -/
def Outcome.nameless : Outcome × Progress → Nameless.Outcome
  | (.value v, p) => .value (v.nameless []) p.steps
  | (.exceeded e, _) => .exceeded e
  | (.unfinished, _) => .unfinished

theorem nameless_evaluate {defs : Bindings} (plainDefs : defs.Plain) {t : Term} (plain : t.Plain)
    (limits : Limits) (w : Workspace) :
    Outcome.nameless (evaluate defs limits t w) =
      Nameless.evaluate defs.nameless limits (t.nameless []) := by
  have run := Term.run_nameless plainDefs (p := { toWorkspace := w }) (.of_plain plain)
    limits.budget
  rw [Nat.zero_add] at run
  unfold evaluate Nameless.evaluate
  rw [← run]
  rcases t.run defs limits.budget { toWorkspace := w } with ⟨v | _, p⟩
  · rfl
  · cases limits.maxSteps <;> rfl

/-- Evaluation is evaluation of nameless terms, under every limit and from every supply. Without a
limit there is a value exactly if the nameless term stops. -/
theorem evaluate_eq_nameless {defs : Bindings} {t : Term} (plainDefs : defs.Plain)
    (plain : t.Plain) :
    (∀ limits w, Outcome.nameless (evaluate defs limits t w) =
      Nameless.evaluate defs.nameless limits (t.nameless [])) ∧
    (∀ w v n, (∃ patience, Outcome.nameless
        (evaluate defs { maxSteps := none, patience := patience } t w) = .value v n) ↔
      Nameless.Stops defs.nameless (t.nameless []) n v) ∧
    ∀ limits w w', Outcome.nameless (evaluate defs limits t w) =
      Outcome.nameless (evaluate defs limits t w') := by
  have same := nameless_evaluate plainDefs plain
  refine ⟨same, ?_, ?_⟩
  · intro w v n
    constructor
    · rintro ⟨patience, value⟩
      rw [same] at value
      exact (Nameless.evaluate_eq_value_iff.mp value).1
    · intro stops
      refine ⟨n, ?_⟩
      rw [same]
      exact Nameless.evaluate_eq_value_iff.mpr ⟨stops, Nat.le_refl n⟩
  · intro limits w w'
    rw [same, same]

/-- The argument `y` would be captured, and a name has been made from it before. -/
theorem evaluate_applied_to_parameter :
    let defs : Bindings :=
      (∅ : Bindings).insert "k" (.lam "x" (.lam "y" (.app (.var "x") (.var "y"))))
    let t : Term := .app (.var "k") (.var "y")
    let w : Workspace := { supply := Supply.empty.advance "y" }
    defs.Plain ∧ t.Plain ∧ Outcome.nameless (evaluate defs { maxSteps := some 2 } t w) =
      .value (.lam (.app (.free "y") (.index 0))) 2 := by
  intro defs t w
  have plainDefs : defs.Plain := by
    intro x body bound
    simp only [defs, Std.ExtTreeMap.getElem?_insert] at bound
    split at bound
    · obtain rfl := Option.some.inj bound
      unfold Term.Plain
      decide
    · simp at bound
  have plain : t.Plain := by
    unfold Term.Plain
    decide
  refine ⟨plainDefs, plain, ?_⟩
  rw [(evaluate_eq_nameless plainDefs plain).1, Nameless.evaluate_eq_value_iff]
  have bound : defs.nameless "k" = some (.lam (.lam (.app (.index 1) (.index 0)))) := by
    simp [defs, Bindings.nameless, Term.nameless]
  have unbound : defs.nameless "y" = none := by
    simp [defs, Bindings.nameless]
  have expand : (t.nameless []).step? defs.nameless =
      some (.app (.lam (.lam (.app (.index 1) (.index 0)))) (.free "y")) :=
    Nameless.step?_app_left bound
  have reduce : (Nameless.app (.lam (.lam (.app (.index 1) (.index 0)))) (.free "y")).step?
      defs.nameless = some (.lam (.app (.free "y") (.index 0))) :=
    Nameless.step?_app_stopped rfl unbound
  exact ⟨.step expand (.step reduce (.stop rfl)), Nat.le_refl 2⟩

end EagerLambda
