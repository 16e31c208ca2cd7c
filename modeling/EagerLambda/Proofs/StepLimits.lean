import EagerLambda.Proofs.Runs

/-!
# Step limits

A limit decides how far an evaluation goes and nothing else. Under every limit the evaluation
follows the same counted run, so a value that comes within the limit comes under every larger one,
and what is given up has done the first part of what a larger limit allows (`limit_cuts_short`).
-/

namespace EagerLambda

variable {defs : Bindings} {maxSteps : Option Nat} {m : Nat} {t v : Term} {s : Supply}
  {o o' : Outcome} {p p' : Progress}

namespace Returns

theorem unique (first : Returns defs maxSteps t s o p) (second : Returns defs maxSteps t s o' p') :
    o' = o ∧ p' = p := by
  obtain ⟨-, enough, ends⟩ := first
  obtain ⟨-, enough', ends'⟩ := second
  have same := (ends' (max enough enough') (by omega)).symm.trans
    (ends (max enough enough') (by omega))
  exact Prod.mk.inj same

/-- The counted run behind an evaluation that has ended: it has stopped or used up its limit. -/
theorem exists_leads (returns : Returns defs maxSteps t s o p) :
    ∃ k u q, Leads (Term.next? defs) k (t, { supply := s }) (u, q) ∧
      (u.step? defs q = none ∨ maxSteps = some k) ∧ q.supply = p.supply ∧
      q.log.toList <+: p.log.toList := by
  cases o with
  | value v =>
    obtain ⟨k, q, -, leads, stopped, rfl⟩ := returns_value_iff.mp returns
    exact ⟨k, v, q, leads, Or.inl stopped, rfl, by simp [Progress.note, Workspace.record]⟩
  | exceeded e =>
    obtain ⟨bound, u, q, leads, -, rfl⟩ := returns_exceeded_iff.mp returns
    exact ⟨e.maxSteps, u, q, leads, Or.inr bound, rfl, List.prefix_refl _⟩
  | unfinished => exact absurd rfl returns.1

end Returns

/-- With a limit it does not matter how long the evaluation is followed. -/
theorem returns_some_iff :
    Returns defs (some m) t s o p ↔
      evaluate defs { maxSteps := some m } t { supply := s } = (o, p) := by
  constructor
  · rintro ⟨-, enough, ends⟩
    exact ends enough (Nat.le_refl _)
  · intro value
    refine ⟨?_, 0, fun _ _ => value⟩
    rintro rfl
    unfold evaluate at value
    split at value <;> simp at value

theorem Returns.raise (returns : Returns defs (some m) t s (.value v) p)
    (le : ∀ k ∈ maxSteps, m ≤ k) : Returns defs maxSteps t s (.value v) p := by
  obtain ⟨k, q, within, run⟩ := returns_value_iff.mp returns
  refine returns_value_iff.mpr ⟨k, q, ?_, run⟩
  intro n bound
  exact Nat.le_trans (within m rfl) (le n bound)

theorem Returns.eq_exceeded (returns : Returns defs (some m) t s o p) (failed : ∀ v, o ≠ .value v) :
    o = .exceeded ⟨m⟩ := by
  cases o with
  | value v => exact absurd rfl (failed v)
  | exceeded e =>
    obtain ⟨bound, -⟩ := returns_exceeded_iff.mp returns
    obtain rfl := Option.some.inj bound
    rfl
  | unfinished => exact absurd rfl returns.1

theorem countP_of_exceeded (exceeded : Returns defs (some m) t s (.exceeded ⟨m⟩) p) :
    p.log.toList.countP Event.isStep = m := by
  obtain ⟨-, u, q, leads, -, rfl⟩ := returns_exceeded_iff.mp exceeded
  obtain ⟨events, log, count⟩ := Term.log_of_leads leads
  simp only [List.nil_append] at log
  show q.log.toList.countP Event.isStep = m
  rw [log, count]

/-- What was given up is the first part of every evaluation under a larger limit. -/
theorem prefix_of_exceeded (exceeded : Returns defs (some m) t s (.exceeded ⟨m⟩) p)
    (returns : Returns defs maxSteps t s o' p') (le : ∀ k ∈ maxSteps, m ≤ k) :
    p.log.toList <+: p'.log.toList ∧ p.supply.Le p'.supply := by
  obtain ⟨-, u, q, leads, -, rfl⟩ := returns_exceeded_iff.mp exceeded
  obtain ⟨k, u', q', leads', ending, supply, log⟩ := returns.exists_leads
  -- Both runs start alike, and the one that was given up is the shorter one.
  have longer : m ≤ k := by
    rcases ending with stopped | bound
    · exact leads.le_of_stopped leads' stopped
    · exact le k bound
  have rest := leads.rest leads' longer
  obtain ⟨events, more, -⟩ := Term.log_of_leads rest
  refine ⟨List.IsPrefix.trans ⟨events, more.symm⟩ log, ?_⟩
  rw [← supply]
  exact Term.le_of_leads rest

theorem returns_value_some_iff :
    Returns defs (some m) t s (.value v) p ↔ Returns defs none t s (.value v) p ∧ p.steps ≤ m := by
  constructor
  · intro returns
    refine ⟨returns.raise (by simp), ?_⟩
    obtain ⟨k, q, within, leads, -, rfl⟩ := returns_value_iff.mp returns
    have steps : q.steps = 0 + k := Term.steps_of_leads leads
    have bound := within m rfl
    show q.steps ≤ m
    omega
  · rintro ⟨returns, few⟩
    obtain ⟨k, q, -, leads, stopped, rfl⟩ := returns_value_iff.mp returns
    refine returns_value_iff.mpr ⟨k, q, ?_, leads, stopped, rfl⟩
    rintro n ⟨⟩
    have steps : q.steps = 0 + k := Term.steps_of_leads leads
    change q.steps ≤ m at few
    omega

/-- A limit only cuts an evaluation short. It always ends the evaluation; a value that it allows is
the value under every larger limit, with the same supply and events; what it refuses is given up
after exactly `m` steps, and is the first part of every evaluation under a larger limit. So the
values under it are those that come without a limit after at most `m` steps. -/
theorem limit_cuts_short (defs : Bindings) (t : Term) (s : Supply) (m : Nat) (maxSteps : Option Nat)
    (le : ∀ k ∈ maxSteps, m ≤ k) :
    (∃ o p, Returns defs (some m) t s o p ∧
      ∀ o' p', Returns defs (some m) t s o' p' → o' = o ∧ p' = p) ∧
    (∀ v p, Returns defs (some m) t s (.value v) p → Returns defs maxSteps t s (.value v) p) ∧
    (∀ o p, Returns defs (some m) t s o p → (∀ v, o ≠ .value v) →
      o = .exceeded ⟨m⟩ ∧ p.log.toList.countP Event.isStep = m ∧
        ∀ o' p', Returns defs maxSteps t s o' p' →
          p.log.toList <+: p'.log.toList ∧ p.supply.Le p'.supply) ∧
    ∀ v p, Returns defs (some m) t s (.value v) p ↔
      Returns defs none t s (.value v) p ∧ p.steps ≤ m := by
  refine ⟨?_, ?_, ?_, ?_⟩
  · refine ⟨_, _, returns_some_iff.mpr rfl, ?_⟩
    intro o' p' other
    exact Returns.unique (returns_some_iff.mpr rfl) other
  · intro v p returns
    exact returns.raise le
  · intro o p returns failed
    obtain rfl := returns.eq_exceeded failed
    exact ⟨rfl, countP_of_exceeded returns, fun o' p' other => prefix_of_exceeded returns other le⟩
  · intro v p
    exact returns_value_some_iff

/-- The second of three steps renames a parameter, and the third one is refused. -/
theorem limit_two_cuts_short :
    let defs : Bindings :=
      (∅ : Bindings).insert "k" (.lam "x" (.lam "y" (.app (.var "x") (.var "y"))))
    let t : Term := .app (.app (.var "k") (.var "y")) (.var "z")
    let short := evaluate defs { maxSteps := some 2 } t {}
    let long := evaluate defs { maxSteps := some 3 } t {}
    (∀ k ∈ some 3, 2 ≤ k) ∧ short.1 = .exceeded ⟨2⟩ ∧
      long.1 = .value (.app (.var "y") (.var "z")) ∧
      short.2.log.toList.countP Event.isStep = 2 ∧
      short.2.log.toList <+: long.2.log.toList ∧ short.2.supply.Le long.2.supply := by
  intro defs t short long
  have le : ∀ k ∈ some 3, 2 ≤ k := by simp
  have refused : short.1 = .exceeded ⟨2⟩ := by
    unfold short t defs
    cbv
  have value : long.1 = .value (.app (.var "y") (.var "z")) := by
    unfold long t defs
    cbv
  have cut := (limit_cuts_short defs t .empty 2 (some 3) le).2.2.1 short.1 short.2
    (returns_some_iff.mpr rfl) (by simp [refused])
  obtain ⟨-, count, first⟩ := cut
  exact ⟨le, refused, value, count, first long.1 long.2 (returns_some_iff.mpr rfl)⟩

end EagerLambda
