import EagerLambda.Proofs.Locality

/-!
# Normal forms

A term stops at the normal forms and nowhere else (`step?_eq_none_iff`): these are the functions and
the neutral terms, in which an unbound name is applied to normal forms. So they are the values, and
they are evaluated without a step (`values_are_normal_forms`). The name at the head of a neutral
term is free, so a program whose free names are all bound never gets stuck, and its values are
functions (`value_of_closed_is_function`).
-/

namespace EagerLambda

namespace Term

mutual

/-- An unbound name, or the application of a neutral term to a normal form. -/
inductive Neutral (defs : Bindings) : Term → Prop where
  | var {x : Name} : defs[x]? = none → Neutral defs (var x)
  | app {f a : Term} : Neutral defs f → Normal defs a → Neutral defs (app f a)

inductive Normal (defs : Bindings) : Term → Prop where
  | lam (x : Name) (b : Term) : Normal defs (lam x b)
  | neutral {t : Term} : Neutral defs t → Normal defs t

end

variable {defs : Bindings} {p : Progress} {t : Term}

theorem normal_of_step?_eq_none (stopped : t.step? defs p = none) : t.Normal defs := by
  induction t with
  | var x =>
    rw [step?, Option.map_eq_none_iff] at stopped
    exact .neutral (.var stopped)
  | lam x b => exact .lam x b
  | app f a ihf iha =>
    obtain ⟨function, argument, reduces⟩ := step?_app_eq_none stopped
    cases ihf function with
    | lam x b => exact absurd reduces (by simp [reduce?])
    | neutral head => exact .neutral (.app head (iha argument))

theorem step?_eq_none_of_normal (normal : t.Normal defs) (p : Progress) :
    t.step? defs p = none := by
  induction t with
  | var x =>
    obtain ⟨⟩ | ⟨⟨unbound⟩⟩ := normal
    rw [step?, unbound, Option.map_none]
  | lam x b => rfl
  | app f a ihf iha =>
    obtain ⟨⟩ | ⟨⟨⟩ | ⟨head, argument⟩⟩ := normal
    rw [step?_app_stopped (ihf (.neutral head)) (iha argument)]
    cases head with
    | var unbound => rfl
    | app head argument => rfl

theorem step?_eq_none_iff : t.step? defs p = none ↔ t.Normal defs :=
  ⟨normal_of_step?_eq_none, fun normal => step?_eq_none_of_normal normal p⟩

theorem Neutral.exists_unbound (neutral : t.Neutral defs) : ∃ x, t.Free x ∧ defs[x]? = none := by
  induction t with
  | var x =>
    cases neutral with
    | var unbound => exact ⟨x, rfl, unbound⟩
  | lam x b => cases neutral
  | app f a ihf iha =>
    cases neutral with
    | app head argument =>
      obtain ⟨x, free, unbound⟩ := ihf head
      exact ⟨x, Or.inl free, unbound⟩

end Term

/-! ### Values -/

section
variable {defs : Bindings} {limits : Limits} {t v : Term} {w : Workspace} {p : Progress}

theorem normal_of_value (value : evaluate defs limits t w = (.value v, p)) : v.Normal defs := by
  obtain ⟨k, q, -, -, stopped, -⟩ := evaluate_eq_value_iff.mp value
  exact Term.normal_of_step?_eq_none stopped

/-- A normal form is evaluated without a step, and only the end of the evaluation is logged. -/
theorem evaluate_of_normal (normal : t.Normal defs) :
    evaluate defs limits t w =
      (.value t, { toWorkspace := w.record (.finished 0), steps := 0 }) :=
  evaluate_of_stopped (.refl _) (Term.step?_eq_none_of_normal normal _) (Nat.zero_le _)

theorem normal_of_value_without_step (zero : limits.maxSteps = some 0)
    (value : evaluate defs limits t w = (.value v, p)) : t.Normal defs := by
  obtain ⟨k, q, within, leads, stopped, -⟩ := evaluate_eq_value_iff.mp value
  rw [Limits.budget, zero, Option.getD_some, Nat.le_zero] at within
  subst within
  cases leads with
  | refl => exact Term.normal_of_step?_eq_none stopped

end

/-- The values are the normal forms. Under every limit a value is a normal form. An evaluation that
may take no step has a value exactly if the term is a normal form, and then the term is its own
value under every limit, no step is taken and no name is made. -/
theorem values_are_normal_forms (defs : Bindings) (t : Term) (w : Workspace) :
    (∀ limits v p, evaluate defs limits t w = (.value v, p) → v.Normal defs) ∧
      (∀ limits : Limits, limits.maxSteps = some 0 →
        ((∃ v p, evaluate defs limits t w = (.value v, p)) ↔ t.Normal defs)) ∧
      (t.Normal defs → ∀ limits, ∃ p, evaluate defs limits t w = (.value t, p) ∧
        p.steps = 0 ∧ p.supply = w.supply ∧ p.log = w.log.push (.finished 0)) := by
  refine ⟨fun limits v p value => normal_of_value value, ?_, ?_⟩
  · intro limits zero
    constructor
    · rintro ⟨v, p, value⟩
      exact normal_of_value_without_step zero value
    · intro normal
      exact ⟨t, _, evaluate_of_normal normal⟩
  · intro normal limits
    exact ⟨_, evaluate_of_normal normal, rfl, rfl, rfl⟩

/-- The name `k` is bound, but it stands inside a function, and the function stands behind the
unbound `f`. Applied to `f` it is expanded first. -/
theorem stuck_application_is_its_own_value :
    let defs : Bindings := (∅ : Bindings).insert "k" (.lam "x" (.var "x"))
    let t : Term := .app (.app (.var "f") (.lam "y" (.var "k"))) (.app (.var "g") (.var "z"))
    let u : Term := .app (.var "k") (.var "f")
    t.Normal defs ∧ ¬ u.Normal defs ∧
      (∃ p, evaluate defs { maxSteps := some 0 } t {} = (.value t, p) ∧
        p.steps = 0 ∧ p.supply = Supply.empty ∧ p.log = #[.finished 0]) ∧
      ¬ ∃ v p, evaluate defs { maxSteps := some 0 } u {} = (.value v, p) := by
  intro defs t u
  have unbound (x : Name) (other : "k" ≠ x) : defs[x]? = none := by
    simp [defs, other]
  have head : (Term.app (.var "f") (.lam "y" (.var "k"))).Neutral defs :=
    .app (.var (unbound "f" (by decide))) (.lam _ _)
  have argument : (Term.app (.var "g") (.var "z")).Neutral defs :=
    .app (.var (unbound "g" (by decide))) (.neutral (.var (unbound "z" (by decide))))
  have normal : t.Normal defs := .neutral (.app head (.neutral argument))
  have notNormal : ¬ u.Normal defs := by
    intro normal
    have stopped := Term.step?_eq_none_of_normal normal {}
    simp [u, defs, Term.step?] at stopped
  obtain ⟨-, zero, -⟩ := values_are_normal_forms defs u {}
  obtain ⟨-, -, kept⟩ := values_are_normal_forms defs t {}
  exact ⟨normal, notNormal, kept normal _, fun value => notNormal ((zero _ rfl).mp value)⟩

/-! ### Closed programs -/

namespace Bindings

def names (defs : Bindings) : Set Name :=
  {x | x ∈ defs}

theorem closedOn_empty (names : Set Name) : ClosedOn ∅ names := by
  intro x _ body bound
  exact absurd bound (by simp)

theorem ClosedOn.insert {defs : Bindings} {names : Set Name} {body : Term}
    (closed : defs.ClosedOn names) (x : Name) (within : body.Within names) :
    ClosedOn (defs.insert x body) names := by
  intro y mem other bound
  rw [Std.ExtTreeMap.getElem?_insert] at bound
  split at bound
  · obtain rfl := Option.some.inj bound
    exact within
  · exact closed y mem other bound

end Bindings

theorem Term.Normal.eq_lam_of_within {defs : Bindings} {t : Term} (normal : t.Normal defs)
    (closed : t.Within defs.names) : ∃ x b, t = .lam x b := by
  cases normal with
  | lam x b => exact ⟨x, b, rfl⟩
  | neutral neutral =>
    obtain ⟨x, free, unbound⟩ := neutral.exists_unbound
    have bound : x ∈ defs := closed x free
    rw [Std.ExtTreeMap.mem_iff_isSome_getElem?, unbound] at bound
    exact absurd bound (by simp)

/-- If every free name of the term and of every definition is bound, then a value of the term is a
function, and its free names are bound again. -/
theorem value_of_closed_is_function {defs : Bindings} {t : Term}
    (definitions : defs.ClosedOn defs.names) (term : t.Within defs.names) (limits : Limits)
    (w : Workspace) (v : Term) (p : Progress)
    (value : evaluate defs limits t w = (.value v, p)) :
    (∃ x b, v = .lam x b) ∧ v.Within defs.names := by
  have closed : v.Within defs.names := (Term.within_invariant definitions).value value term
  obtain ⟨k, q, -, -, stopped, -⟩ := evaluate_eq_value_iff.mp value
  exact ⟨(Term.step?_eq_none_iff.mp stopped).eq_lam_of_within closed, closed⟩

/-- The definitions of `ping` and `pong` need each other, and the parameter `pong` of `const` is
renamed before the definition of `ping` is put under it. -/
theorem value_of_const_ping_is_function :
    let defs : Bindings := ((∅ : Bindings).insert "const" (.lam "x" (.lam "pong" (.var "x")))
      |>.insert "ping" (.lam "x" (.app (.var "pong") (.var "x")))
      |>.insert "pong" (.lam "x" (.app (.var "ping") (.var "x"))))
    let t : Term := .app (.var "const") (.var "ping")
    let v : Term := .lam "pong1" (.lam "x" (.app (.var "pong") (.var "x")))
    let r := evaluate defs { maxSteps := some 3 } t {}
    defs.ClosedOn defs.names ∧ t.Within defs.names ∧ r.1 = .value v ∧
      (∃ x b, v = .lam x b) ∧ v.Within defs.names := by
  intro defs t v r
  have const : "const" ∈ defs := by simp [defs]
  have ping : "ping" ∈ defs := by simp [defs]
  have pong : "pong" ∈ defs := by simp [defs]
  have definitions : defs.ClosedOn defs.names := by
    refine (((Bindings.closedOn_empty _).insert "const" ?_).insert "ping" ?_).insert "pong" ?_
    · rintro z ⟨notX, -, isX⟩
      exact absurd isX notX
    · rintro z ⟨notX, (rfl : z = "pong") | isX⟩
      · exact pong
      · exact absurd isX notX
    · rintro z ⟨notX, (rfl : z = "ping") | isX⟩
      · exact ping
      · exact absurd isX notX
  have term : t.Within defs.names := by
    rintro z ((rfl : z = "const") | (rfl : z = "ping"))
    · exact const
    · exact ping
  have value : r.1 = .value v := by
    unfold r t v defs
    cbv
  have function := value_of_closed_is_function definitions term { maxSteps := some 3 } {} v r.2
    (Prod.ext value rfl)
  exact ⟨definitions, term, value, function⟩

end EagerLambda
