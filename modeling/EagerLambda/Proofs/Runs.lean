import EagerLambda.Proofs.Renames
import EagerLambda.Proofs.SmallStep

/-!
# Counted runs

`Leads` counts the steps from one state to another. An evaluation follows the steps of a term for
as long as its limits allow (`evaluate_eq_value_iff`, `evaluate_eq_exceeded_iff`), and every step
leaves exactly one step event in the log (`log_of_leads`).

`Term.smallStep?` is a step of a term with a supply, without log and count. Evaluation without a
limit reaches the terms that it reaches, in as many steps (`returns_iff_leads`).
-/

namespace EagerLambda

/-! ### Counting steps -/

/-- `next` leads from one state to another in exactly `n` steps. -/
inductive Leads {α : Type} (next : α → Option α) : Nat → α → α → Prop where
  | refl (a : α) : Leads next 0 a a
  | step {n : Nat} {a b c : α} : next a = some b → Leads next n b c → Leads next (n + 1) a c

namespace Leads

variable {α β : Type} {next : α → Option α} {m n : Nat} {a b c : α}

theorem keeps {motive : α → Prop} (step : ∀ a b, next a = some b → motive a → motive b)
    (leads : Leads next n a b) (start : motive a) : motive b := by
  induction leads with
  | refl a => exact start
  | step first _ ih => exact ih (step _ _ first start)

/-- Of two counted runs from one state the longer one goes on where the shorter one ends. -/
theorem rest (first : Leads next m a b) (whole : Leads next n a c) (le : m ≤ n) :
    Leads next (n - m) b c := by
  induction first generalizing n with
  | refl a => exact whole
  | step one _ ih =>
    cases whole with
    | refl => omega
    | step other whole =>
      obtain rfl := Option.some.inj (one.symm.trans other)
      rw [Nat.add_sub_add_right]
      exact ih whole (by omega)

theorem le_of_stopped (first : Leads next m a b) (whole : Leads next n a c)
    (stopped : next c = none) : m ≤ n := by
  apply Nat.le_of_not_lt
  intro less
  -- Otherwise the first run would go on from the state where the steps have stopped.
  have more := whole.rest first (by omega)
  obtain ⟨k, k_eq⟩ : ∃ k, m - n = k + 1 := ⟨m - n - 1, by omega⟩
  rw [k_eq] at more
  cases more with
  | step one _ => exact absurd (stopped.symm.trans one) (by simp)

/-- From every state `n` steps can be taken, unless the steps stop earlier. -/
theorem exists_of_bound (next : α → Option α) (n : Nat) (a : α) :
    ∃ k b, Leads next k a b ∧ (k ≤ n ∧ next b = none ∨ k = n ∧ next b ≠ none) := by
  induction n generalizing a with
  | zero =>
    refine ⟨0, a, .refl a, ?_⟩
    by_cases stopped : next a = none
    · exact Or.inl ⟨Nat.le_refl 0, stopped⟩
    · exact Or.inr ⟨rfl, stopped⟩
  | succ n ih =>
    cases first : next a with
    | none => exact ⟨0, a, .refl a, Or.inl ⟨Nat.zero_le _, first⟩⟩
    | some b =>
      obtain ⟨k, c, leads, ending⟩ := ih b
      refine ⟨k + 1, c, .step first leads, ?_⟩
      rcases ending with ⟨le, stopped⟩ | ⟨rfl, more⟩
      · exact Or.inl ⟨by omega, stopped⟩
      · exact Or.inr ⟨rfl, more⟩

/-! A view of the states that commutes with the steps carries counted runs over, both ways. -/

theorem view {next' : β → Option β} {f : α → β}
    (commutes : ∀ a, next' (f a) = (next a).map f) (leads : Leads next n a b) :
    Leads next' n (f a) (f b) := by
  induction leads with
  | refl a => exact .refl (f a)
  | step first _ ih =>
    refine .step ?_ ih
    rw [commutes, first, Option.map_some]

theorem exists_of_view {next' : β → Option β} {f : α → β}
    (commutes : ∀ a, next' (f a) = (next a).map f) {d : β} (leads : Leads next' n (f a) d) :
    ∃ b, f b = d ∧ Leads next n a b := by
  -- Only the view of the state is known at each step, so the state itself is found on the way.
  generalize start : f a = e at leads
  induction leads generalizing a with
  | refl => exact ⟨a, start, .refl a⟩
  | step first _ ih =>
    rw [← start, commutes] at first
    obtain ⟨b, one, same⟩ := Option.map_eq_some_iff.mp first
    obtain ⟨c, last, more⟩ := ih same
    exact ⟨c, last, .step one more⟩

end Leads

/-! ### Runs -/

namespace Term

/-- The next step of a term together with its progress. -/
def next? (defs : Bindings) (c : Term × Progress) : Option (Term × Progress) :=
  c.1.step? defs c.2

variable {defs : Bindings} {n : Nat} {c d : Term × Progress}

theorem steps_of_leads (leads : Leads (next? defs) n c d) : d.2.steps = c.2.steps + n := by
  induction leads with
  | refl c => rfl
  | step first _ ih =>
    have one := steps_step? first
    omega

theorem le_of_leads (leads : Leads (next? defs) n c d) : c.2.supply.Le d.2.supply :=
  leads.keeps (motive := fun d => c.2.supply.Le d.2.supply)
    (fun _ _ step le => le.trans (le_step? step)) (.refl _)

theorem log_step? {t t' : Term} {p p' : Progress} (h : t.step? defs p = some (t', p')) :
    ∃ events, p'.log.toList = p.log.toList ++ events ∧ events.countP Event.isStep = 1 := by
  refine step_induction (motive := fun _ p _ p' => ∃ events,
    p'.log.toList = p.log.toList ++ events ∧ events.countP Event.isStep = 1) ?_ ?_ ?_ ?_ h
  · intro x body p _
    exact ⟨[.expanded x], by simp [Progress.step, Progress.note, Workspace.record], rfl⟩
  · intro f a p f' p' _ ih
    exact ih
  · intro f a p a' p' _ _ ih
    exact ih
  · intro x b a p _
    obtain ⟨ys, renames⟩ := b.exists_renames x a (p.toWorkspace.record (.reduced x (p.steps + 1)))
    obtain ⟨events, log, noSteps⟩ :=
      (p.toWorkspace.record (.reduced x (p.steps + 1))).log_afterRenames ys
    refine ⟨.reduced x (p.steps + 1) :: events, ?_, ?_⟩
    · simp only [applied, renames, log]
      simp [Workspace.record]
    · rw [List.countP_cons_of_pos rfl, noSteps]

/-- A counted run adds to the log, and its steps can be counted there. -/
theorem log_of_leads (leads : Leads (next? defs) n c d) :
    ∃ events, d.2.log.toList = c.2.log.toList ++ events ∧ events.countP Event.isStep = n := by
  induction leads with
  | refl c => exact ⟨[], by simp, rfl⟩
  | step first _ ih =>
    obtain ⟨one, log₁, count₁⟩ := log_step? first
    obtain ⟨more, log₂, count₂⟩ := ih
    refine ⟨one ++ more, ?_, ?_⟩
    · rw [log₂, log₁, List.append_assoc]
    · rw [List.countP_append, count₁, count₂, Nat.add_comm]

/-- A property of terms that every step keeps: an application has it exactly if both its parts do,
a definition has it from the bound name, and the result of a reduction from function and
argument. -/
structure StepInvariant (defs : Bindings) (P : Term → Prop) : Prop where
  app (f a : Term) : P (app f a) ↔ P f ∧ P a
  expand (x : Name) (body : Term) : defs[x]? = some body → P (var x) → P body
  reduce (x : Name) (b a : Term) (w : Workspace) :
    P (lam x b) → P a → P (b.substitute x a w).1

namespace StepInvariant

variable {P : Term → Prop}

theorem step (invariant : StepInvariant defs P) {t t' : Term} {p p' : Progress}
    (h : t.step? defs p = some (t', p')) (start : P t) : P t' := by
  revert start
  refine step_induction (motive := fun t _ t' _ => P t → P t') ?_ ?_ ?_ ?_ h
  · intro x body p bound start
    exact invariant.expand x body bound start
  · intro f a p f' p' _ ih start
    obtain ⟨function, argument⟩ := (invariant.app f a).mp start
    exact (invariant.app f' a).mpr ⟨ih function, argument⟩
  · intro f a p a' p' _ _ ih start
    obtain ⟨function, argument⟩ := (invariant.app f a).mp start
    exact (invariant.app f a').mpr ⟨function, ih argument⟩
  · intro x b a p _ start
    obtain ⟨function, argument⟩ := (invariant.app (lam x b) a).mp start
    exact invariant.reduce x b a _ function argument

theorem leads (invariant : StepInvariant defs P) (run : Leads (next? defs) n c d)
    (start : P c.1) : P d.1 :=
  run.keeps (motive := fun c => P c.1) (fun _ _ step => invariant.step step) start

end StepInvariant

theorem run_of_leads {budget : Nat} (leads : Leads (next? defs) n c d)
    (enough : c.2.steps + n ≤ budget) : c.1.run defs budget c.2 = d.1.run defs budget d.2 := by
  induction leads with
  | refl c => rfl
  | step first _ ih =>
    have one := steps_step? first
    rw [run_of_step?_eq_some first (by omega)]
    exact ih (by omega)

end Term

/-! ### Evaluation -/

section
variable {defs : Bindings} {limits : Limits} {t v : Term} {w : Workspace} {p : Progress}

theorem evaluate_of_stopped {k : Nat} {q : Progress}
    (leads : Leads (Term.next? defs) k (t, { toWorkspace := w }) (v, q))
    (stopped : v.step? defs q = none) (le : k ≤ limits.budget) :
    evaluate defs limits t w = (.value v, q.note (.finished q.steps)) := by
  have run : t.run defs limits.budget { toWorkspace := w } = v.run defs limits.budget q :=
    Term.run_of_leads leads (by simpa using le)
  rw [Term.run_of_step?_eq_none stopped] at run
  rw [evaluate, run]

theorem run_of_exhausted {u : Term} {q : Progress}
    (leads : Leads (Term.next? defs) limits.budget (t, { toWorkspace := w }) (u, q))
    (more : u.step? defs q ≠ none) :
    t.run defs limits.budget { toWorkspace := w } = (.outOfSteps, q.step) := by
  have run : t.run defs limits.budget { toWorkspace := w } = u.run defs limits.budget q :=
    Term.run_of_leads leads (by simp)
  obtain ⟨⟨u', q'⟩, step⟩ := Option.ne_none_iff_exists'.mp more
  have used : limits.budget ≤ q.steps := by
    have count := Term.steps_of_leads leads
    simp only [Nat.zero_add] at count
    omega
  rw [run, Term.run_of_budget_le step used]

/-- An evaluation gives the term at which the steps stop, if the limits allow as many. -/
theorem evaluate_eq_value_iff :
    evaluate defs limits t w = (.value v, p) ↔
      ∃ k q, k ≤ limits.budget ∧ Leads (Term.next? defs) k (t, { toWorkspace := w }) (v, q) ∧
        v.step? defs q = none ∧ p = q.note (.finished q.steps) := by
  constructor
  · intro value
    obtain ⟨k, ⟨u, q⟩, leads, ⟨le, stopped⟩ | ⟨rfl, more⟩⟩ :=
      Leads.exists_of_bound (Term.next? defs) limits.budget (t, { toWorkspace := w })
    · rw [evaluate_of_stopped leads stopped le] at value
      obtain ⟨same, rfl⟩ := Prod.mk.inj value
      obtain rfl := Outcome.value.inj same
      exact ⟨k, q, le, leads, stopped, rfl⟩
    · rw [evaluate, run_of_exhausted leads more] at value
      cases bound : limits.maxSteps <;> simp [bound] at value
  · rintro ⟨k, q, le, leads, stopped, rfl⟩
    exact evaluate_of_stopped leads stopped le

theorem Term.StepInvariant.value {P : Term → Prop} (invariant : StepInvariant defs P)
    (h : evaluate defs limits t w = (.value v, p)) (start : P t) : P v := by
  obtain ⟨k, q, -, run, -⟩ := evaluate_eq_value_iff.mp h
  exact invariant.leads run start

/-- An evaluation is given up when it has taken all the steps it may and could take another. -/
theorem evaluate_eq_exceeded_iff {e : LimitExceeded} :
    evaluate defs limits t w = (.exceeded e, p) ↔
      limits.maxSteps = some e.maxSteps ∧
        ∃ u q, Leads (Term.next? defs) e.maxSteps (t, { toWorkspace := w }) (u, q) ∧
          u.step? defs q ≠ none ∧ p = q.step := by
  constructor
  · intro exceeded
    obtain ⟨k, ⟨u, q⟩, leads, ⟨le, stopped⟩ | ⟨rfl, more⟩⟩ :=
      Leads.exists_of_bound (Term.next? defs) limits.budget (t, { toWorkspace := w })
    · rw [evaluate_of_stopped leads stopped le] at exceeded
      exact absurd exceeded (by simp)
    · rw [evaluate, run_of_exhausted leads more] at exceeded
      cases bound : limits.maxSteps with
      | none => simp [bound] at exceeded
      | some m =>
        simp only [bound, Prod.mk.injEq, Outcome.exceeded.injEq] at exceeded
        obtain ⟨rfl, rfl⟩ := exceeded
        rw [Limits.budget, bound, Option.getD_some] at leads
        exact ⟨rfl, u, q, leads, more, rfl⟩
  · rintro ⟨bound, u, q, leads, more, rfl⟩
    have budget : limits.budget = e.maxSteps := by rw [Limits.budget, bound, Option.getD_some]
    rw [← budget] at leads
    rw [evaluate, run_of_exhausted leads more]
    simp [bound]

end

/-- Under the limit, if there is one, the evaluation ends in this way: every patience from some
number on is enough to see it. -/
def Returns (defs : Bindings) (maxSteps : Option Nat) (t : Term) (s : Supply) (o : Outcome)
    (p : Progress) : Prop :=
  o ≠ .unfinished ∧ ∃ enough, ∀ patience, enough ≤ patience →
    evaluate defs { maxSteps := maxSteps, patience := patience } t { supply := s } = (o, p)

section
variable {defs : Bindings} {maxSteps : Option Nat} {t v : Term} {s : Supply} {p : Progress}

theorem returns_value_iff :
    Returns defs maxSteps t s (.value v) p ↔
      ∃ k q, (∀ m ∈ maxSteps, k ≤ m) ∧ Leads (Term.next? defs) k (t, { supply := s }) (v, q) ∧
        v.step? defs q = none ∧ p = q.note (.finished q.steps) := by
  constructor
  · rintro ⟨-, enough, ends⟩
    obtain ⟨k, q, le, leads, stopped, same⟩ :=
      evaluate_eq_value_iff.mp (ends enough (Nat.le_refl _))
    refine ⟨k, q, ?_, leads, stopped, same⟩
    rintro m rfl
    exact le
  · rintro ⟨k, q, le, leads, stopped, same⟩
    refine ⟨by simp, k, fun patience long => ?_⟩
    refine evaluate_eq_value_iff.mpr ⟨k, q, ?_, leads, stopped, same⟩
    cases maxSteps with
    | none => exact long
    | some m => exact le m rfl

theorem returns_exceeded_iff {e : LimitExceeded} :
    Returns defs maxSteps t s (.exceeded e) p ↔
      maxSteps = some e.maxSteps ∧
        ∃ u q, Leads (Term.next? defs) e.maxSteps (t, { supply := s }) (u, q) ∧
          u.step? defs q ≠ none ∧ p = q.step := by
  constructor
  · rintro ⟨-, enough, ends⟩
    exact evaluate_eq_exceeded_iff.mp (ends enough (Nat.le_refl _))
  · intro exceeded
    exact ⟨by simp, 0, fun patience _ => evaluate_eq_exceeded_iff.mpr exceeded⟩

end

/-! ### Small steps -/

namespace Term

/-- The body of `f` with `a` for its parameter, if `f` is a `lam`. -/
def contract? (s : Supply) (f a : Term) : Option (Term × Supply) :=
  match f with
  | lam x b =>
    let r := b.substitute x a { supply := s }
    some (r.1, r.2.supply)
  | _ => none

/-- One step of a term with a supply: a bound name becomes its definition, and an application
steps in its function if that can step, else in its argument if that can step, else, if its
function is a `lam`, to the body with the argument for the parameter. Nothing steps inside a
`lam`. -/
def smallStep? (defs : Bindings) (s : Supply) : Term → Option (Term × Supply)
  | var x => defs[x]?.map fun body => (body, s)
  | lam _ _ => none
  | app f a =>
    match smallStep? defs s f with
    | some (f', s') => some (app f' a, s')
    | none =>
      match smallStep? defs s a with
      | some (a', s') => some (app f a', s')
      | none => f.contract? s a

theorem contract?_eq (f a : Term) (p : Progress) :
    f.contract? p.supply a = (f.reduce? p a).map fun c => (c.1, c.2.supply) := by
  cases f with
  | var x => rfl
  | app g c => rfl
  | lam x b =>
    rw [contract?, reduce?, Option.map_some, applied,
      Workspace.eq_behind (p.toWorkspace.record _), substitute_behind]
    rfl

/-- Log and count aside, a step is a small step. -/
theorem smallStep?_eq (defs : Bindings) (t : Term) (p : Progress) :
    t.smallStep? defs p.supply = (t.step? defs p).map fun c => (c.1, c.2.supply) := by
  induction t with
  | var x =>
    rw [smallStep?, step?, Option.map_map]
    rfl
  | lam x b => rfl
  | app f a ihf iha =>
    rw [smallStep?, ihf]
    cases hf : f.step? defs p with
    | some c =>
      rw [step?_app_left hf]
      rfl
    | none =>
      rw [iha]
      cases ha : a.step? defs p with
      | some c =>
        rw [step?_app_right hf ha]
        rfl
      | none =>
        rw [step?_app_stopped hf ha]
        exact contract?_eq f a p

end Term

/-- Without a limit, evaluation gives `r`, leaves the supply `s'` and counts `n` steps exactly if
`n` small steps lead to `r` and `s'` and none leads on from there. -/
theorem returns_iff_leads (defs : Bindings) (t r : Term) (s s' : Supply) (n : Nat) :
    (∃ p, Returns defs none t s (.value r) p ∧ p.supply = s' ∧ p.steps = n) ↔
      Leads (fun c => c.1.smallStep? defs c.2) n (t, s) (r, s') ∧ r.smallStep? defs s' = none := by
  have commutes (c : Term × Progress) :
      c.1.smallStep? defs c.2.supply = (Term.next? defs c).map fun c => (c.1, c.2.supply) :=
    Term.smallStep?_eq defs c.1 c.2
  constructor
  · rintro ⟨p, returns, rfl, rfl⟩
    obtain ⟨k, q, -, leads, stopped, rfl⟩ := returns_value_iff.mp returns
    have steps : q.steps = k := by simpa using Term.steps_of_leads leads
    refine ⟨?_, ?_⟩
    · show Leads _ q.steps (t, s) (r, q.supply)
      rw [steps]
      exact leads.view (f := fun c : Term × Progress => (c.1, c.2.supply)) commutes
    · show r.smallStep? defs q.supply = none
      rw [Term.smallStep?_eq, stopped, Option.map_none]
  · rintro ⟨leads, stopped⟩
    obtain ⟨⟨u, q⟩, same, run⟩ := Leads.exists_of_view
      (f := fun c : Term × Progress => (c.1, c.2.supply)) commutes
      (a := (t, { supply := s })) leads
    obtain ⟨rfl, rfl⟩ := Prod.mk.inj same
    rw [Term.smallStep?_eq, Option.map_eq_none_iff] at stopped
    refine ⟨q.note (.finished q.steps), ?_, rfl, ?_⟩
    · exact returns_value_iff.mpr ⟨n, q, by simp, run, stopped, rfl⟩
    · show q.steps = n
      simpa using Term.steps_of_leads run

end EagerLambda
