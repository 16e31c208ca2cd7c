import EagerLambda.Proofs.Runs

/-!
# Logs

The log of an evaluation accounts for everything that it did (`evaluation_log_accounts`). The steps
can be counted in it, every renaming stands right behind the minting of its name, and the supply at
the end is the one at the beginning with the mintings of the log counted in. An evaluation that was
given up leaves the same account of the part it has done.

`Accounts` is closed under appending logs, so it is shown event by event and then along a run.
-/

namespace EagerLambda

/-- The name that an event made from the base, if it made one. -/
def Event.mintedFrom? (base : Name) : Event → Option Name
  | minted b new => if b = base then some new else none
  | _ => none

def mintedFrom (base : Name) (events : List Event) : List Name :=
  events.filterMap (Event.mintedFrom? base)

theorem mintedFrom_append (base : Name) (first second : List Event) :
    mintedFrom base (first ++ second) = mintedFrom base first ++ mintedFrom base second :=
  List.filterMap_append

/-- The events account for a run from the supply `s` to the supply `s'`, before which `n` steps had
been taken. -/
structure Accounts (n : Nat) (s s' : Supply) (events : List Event) : Prop where
  -- A reduction carries the number of steps up to it, itself included.
  reduced (i : Nat) (x : Name) (k : Nat) : events[i]? = some (.reduced x k) →
    k = n + (events.take (i + 1)).countP Event.isStep
  -- A minting is followed at once by a renaming to the new name,
  minted (i : Nat) (y z : Name) : events[i]? = some (.minted y z) →
    events[i + 1]? = some (.renamed y z)
  -- and a renaming comes at once after the minting of the new name.
  renamed (i : Nat) (y z : Name) : events[i]? = some (.renamed y z) →
    0 < i ∧ events[i - 1]? = some (.minted y z)
  -- Each count is higher by the number of mintings from its base,
  count (base : Name) : s'.count base = s.count base + (mintedFrom base events).length
  -- and the names made from a base carry the numbers after its first count, one by one.
  number (base : Name) (k : Nat) (z : Name) : (mintedFrom base events)[k]? = some z →
    z = base ++ (s.count base + (k + 1)).repr

theorem getElem?_append_cases {α : Type} {l m : List α} {i : Nat} {a : α}
    (h : (l ++ m)[i]? = some a) :
    i < l.length ∧ l[i]? = some a ∨ ∃ j, i = l.length + j ∧ m[j]? = some a := by
  rw [List.getElem?_append] at h
  split at h
  · next less => exact Or.inl ⟨less, h⟩
  · exact Or.inr ⟨i - l.length, by omega, h⟩

theorem eq_of_getElem?_singleton {α : Type} {i : Nat} {a b : α} (h : [a][i]? = some b) :
    i = 0 ∧ a = b := by
  rw [List.getElem?_singleton] at h
  split at h
  · next first => exact ⟨first, Option.some.inj h⟩
  · exact absurd h (by simp)

namespace Accounts

variable {n : Nat} {s s₁ s₂ : Supply} {first second : List Event}

theorem nil (n : Nat) (s : Supply) : Accounts n s s [] := by
  constructor <;> simp [mintedFrom]

theorem append (before : Accounts n s s₁ first)
    (after : Accounts (n + first.countP Event.isStep) s₁ s₂ second) :
    Accounts n s s₂ (first ++ second) := by
  constructor
  · intro i x k found
    rcases getElem?_append_cases found with ⟨less, early⟩ | ⟨j, rfl, late⟩
    · rw [List.take_append_of_le_length less]
      exact before.reduced i x k early
    · rw [Nat.add_assoc, List.take_length_add_append, List.countP_append, ← Nat.add_assoc]
      exact after.reduced j x k late
  · intro i y z found
    rcases getElem?_append_cases found with ⟨-, early⟩ | ⟨j, rfl, late⟩
    · have next := before.minted i y z early
      rw [List.getElem?_append_left (List.getElem?_eq_some_iff.mp next).1]
      exact next
    · rw [Nat.add_assoc, List.getElem?_append_right (Nat.le_add_right _ _),
        Nat.add_sub_cancel_left]
      exact after.minted j y z late
  · intro i y z found
    rcases getElem?_append_cases found with ⟨less, early⟩ | ⟨j, rfl, late⟩
    · obtain ⟨positive, previous⟩ := before.renamed i y z early
      rw [List.getElem?_append_left (by omega)]
      exact ⟨positive, previous⟩
    · obtain ⟨positive, previous⟩ := after.renamed j y z late
      rw [Nat.add_sub_assoc positive, List.getElem?_append_right (Nat.le_add_right _ _),
        Nat.add_sub_cancel_left]
      exact ⟨by omega, previous⟩
  · intro base
    rw [after.count, before.count, mintedFrom_append, List.length_append, Nat.add_assoc]
  · intro base k z found
    rw [mintedFrom_append] at found
    rcases getElem?_append_cases found with ⟨-, early⟩ | ⟨j, rfl, late⟩
    · exact before.number base k z early
    · rw [after.number base j z late, before.count, Nat.add_assoc, Nat.add_assoc]

theorem single {e : Event} (plain : ∀ y z, e ≠ .minted y z ∧ e ≠ .renamed y z)
    (counted : ∀ x k, e = .reduced x k → k = n + 1) : Accounts n s s [e] := by
  have mints (base : Name) : mintedFrom base [e] = [] := by
    cases e with
    | minted y z => exact absurd rfl (plain y z).1
    | _ => rfl
  constructor
  · intro i x k found
    obtain ⟨rfl, rfl⟩ := eq_of_getElem?_singleton found
    exact counted x k rfl
  · intro i y z found
    exact absurd (eq_of_getElem?_singleton found).2 (plain y z).1
  · intro i y z found
    exact absurd (eq_of_getElem?_singleton found).2 (plain y z).2
  · intro base
    rw [mints]
    rfl
  · intro base k z found
    rw [mints] at found
    exact absurd found (by simp)

theorem rename (n : Nat) (s : Supply) (y : Name) :
    Accounts n s (s.advance y) [.minted y (s.next y), .renamed y (s.next y)] := by
  have mints (base : Name) :
      mintedFrom base [.minted y (s.next y), .renamed y (s.next y)] =
        if y = base then [s.next y] else [] := by
    by_cases same : y = base <;> simp [mintedFrom, Event.mintedFrom?, same]
  constructor
  · intro i x k found
    rcases i with _ | _ | i <;> simp at found
  · intro i y' z found
    rcases i with _ | _ | i
    · obtain ⟨rfl, rfl⟩ : y = y' ∧ s.next y = z := by simpa using found
      rfl
    · simp at found
    · simp at found
  · intro i y' z found
    rcases i with _ | _ | i
    · simp at found
    · obtain ⟨rfl, rfl⟩ : y = y' ∧ s.next y = z := by simpa using found
      exact ⟨Nat.one_pos, rfl⟩
    · simp at found
  · intro base
    rw [mints, Supply.count_advance]
    split
    · next same => rw [same]; rfl
    · rfl
  · intro base k z found
    rw [mints] at found
    split at found
    · next same =>
      subst same
      obtain ⟨less, rfl⟩ := List.getElem?_eq_some_iff.mp found
      obtain rfl : k = 0 := by simpa using less
      rfl
    · exact absurd found (by simp)

end Accounts

/-! ### Runs -/

/-- A run can go from one progress to the other: it logs behind what was there, the new events
account for it, and none of them says that it has finished. -/
def Progress.Continues (p p' : Progress) : Prop :=
  ∃ events, p'.log.toList = p.log.toList ++ events ∧
    p'.steps = p.steps + events.countP Event.isStep ∧
    Accounts p.steps p.supply p'.supply events ∧ ∀ k, .finished k ∉ events

namespace Progress.Continues

variable {p p₁ p₂ : Progress}

theorem refl (p : Progress) : p.Continues p :=
  ⟨[], by simp, by simp, .nil _ _, by simp⟩

theorem trans (first : p.Continues p₁) (second : p₁.Continues p₂) : p.Continues p₂ := by
  obtain ⟨events₁, log₁, steps₁, account₁, running₁⟩ := first
  obtain ⟨events₂, log₂, steps₂, account₂, running₂⟩ := second
  refine ⟨events₁ ++ events₂, ?_, ?_, ?_, ?_⟩
  · rw [log₂, log₁, List.append_assoc]
  · rw [steps₂, steps₁, List.countP_append, Nat.add_assoc]
  · rw [steps₁] at account₂
    exact account₁.append account₂
  · intro k mem
    rcases List.mem_append.mp mem with mem | mem
    · exact running₁ k mem
    · exact running₂ k mem

theorem stepped (p : Progress) {e : Event} (isStep : e.isStep = true)
    (counted : ∀ x k, e = .reduced x k → k = p.steps + 1) : p.Continues (p.step.note e) := by
  refine ⟨[e], by simp [step, note, Workspace.record], by simp [step, note, isStep],
    .single ?_ counted, ?_⟩
  · intro y z
    constructor <;> rintro rfl <;> cases isStep
  · intro k mem
    obtain rfl := List.mem_singleton.mp mem
    cases isStep

theorem renamed (p : Progress) (y : Name) :
    p.Continues { p with toWorkspace := p.toWorkspace.afterRename y } := by
  refine ⟨[.minted y (p.supply.next y), .renamed y (p.supply.next y)], ?_, rfl,
    .rename p.steps p.supply y, by simp⟩
  simp [Workspace.afterRename, Workspace.mint, Workspace.record]

theorem afterRenames (p : Progress) (ys : List Name) :
    p.Continues { p with toWorkspace := p.toWorkspace.afterRenames ys } := by
  induction ys generalizing p with
  | nil => exact refl p
  | cons y ys ih => exact (renamed p y).trans (ih { p with toWorkspace := p.afterRename y })

end Progress.Continues

namespace Term

variable {defs : Bindings}

theorem continues_step? {t t' : Term} {p p' : Progress} (h : t.step? defs p = some (t', p')) :
    p.Continues p' := by
  refine step_induction (motive := fun _ p _ p' => p.Continues p') ?_ ?_ ?_ ?_ h
  · intro x body p _
    exact .stepped p rfl (by simp)
  · intro f a p f' p' _ ih
    exact ih
  · intro f a p a' p' _ _ ih
    exact ih
  · intro x b a p _
    -- The substitution does nothing to the workspace but rename parameters.
    obtain ⟨ys, renames⟩ := b.exists_renames x a (p.toWorkspace.record (.reduced x (p.steps + 1)))
    rw [applied, renames]
    have reduced : p.Continues (p.step.note (.reduced x (p.steps + 1))) :=
      .stepped p rfl fun _ _ same => (Event.reduced.inj same).2.symm
    exact reduced.trans (.afterRenames _ ys)

theorem continues_of_leads {n : Nat} {c d : Term × Progress} (leads : Leads (next? defs) n c d) :
    c.2.Continues d.2 :=
  leads.keeps (motive := fun d => c.2.Continues d.2)
    (fun _ _ step before => before.trans (continues_step? step)) (.refl _)

end Term

/-! ### Evaluation -/

/-- An evaluation logs that it has finished after its run, if it gives a value; else it stops where
the run is, with one more step begun. -/
theorem evaluate_continues (defs : Bindings) (limits : Limits) (t : Term) (w : Workspace) :
    ∃ q : Progress, Progress.Continues { toWorkspace := w } q ∧
      ((∃ v, evaluate defs limits t w = (.value v, q.note (.finished q.steps))) ∨
        ∃ o, (∀ v, o ≠ .value v) ∧ evaluate defs limits t w = (o, q.step)) := by
  obtain ⟨k, ⟨u, q⟩, leads, ⟨le, stopped⟩ | ⟨rfl, more⟩⟩ :=
    Leads.exists_of_bound (Term.next? defs) limits.budget (t, { toWorkspace := w })
  · exact ⟨q, Term.continues_of_leads leads, Or.inl ⟨u, evaluate_of_stopped leads stopped le⟩⟩
  · refine ⟨q, Term.continues_of_leads leads, Or.inr ?_⟩
    rw [evaluate, run_of_exhausted leads more]
    cases limits.maxSteps with
    | none => exact ⟨.unfinished, by simp, rfl⟩
    | some m => exact ⟨.exceeded ⟨m⟩, by simp, rfl⟩

theorem Threshold.keep_trace (events : List Event) : keep (some .trace) events = events := by
  apply List.filter_eq_self.mpr
  intro e _
  cases e <;> rfl

/-- The log of an evaluation accounts for it. The evaluation gives a value exactly if the last event
says that it has finished; no other event says so, and it gives the number of steps in the log. -/
theorem evaluation_log_accounts (defs : Bindings) (limits : Limits) (t : Term) (s : Supply) :
    let r := evaluate defs limits t { supply := s }
    let events := Threshold.keep (some .trace) r.2.log.toList
    Accounts 0 s r.2.supply events ∧
      ((∃ v, r.1 = .value v) ↔ ∃ n, events.getLast? = some (.finished n)) ∧
      ∀ i n, events[i]? = some (.finished n) →
        i + 1 = events.length ∧ n = events.countP Event.isStep := by
  intro r events
  obtain ⟨q, ⟨run, log, steps, account, running⟩, ending⟩ :=
    evaluate_continues defs limits t { supply := s }
  have log : q.log.toList = run := by simpa using log
  have steps : q.steps = run.countP Event.isStep := by simpa using steps
  have all : events = r.2.log.toList := Threshold.keep_trace _
  rcases ending with ⟨v, value⟩ | ⟨o, failed, stopped⟩
  · have result : r = (.value v, q.note (.finished q.steps)) := value
    have whole : events = run ++ [.finished q.steps] := by
      simp [all, result, Progress.note, Workspace.record, log]
    rw [whole, result]
    refine ⟨?_, ?_, ?_⟩
    · exact account.append (.single (by simp) (by simp))
    · simp
    · intro i n found
      rcases getElem?_append_cases found with ⟨-, early⟩ | ⟨j, rfl, late⟩
      · exact absurd (List.mem_of_getElem? early) (running n)
      · obtain ⟨rfl, same⟩ := eq_of_getElem?_singleton late
        obtain rfl := Event.finished.inj same
        refine ⟨by simp, ?_⟩
        rw [steps, List.countP_append]
        rfl
  · have result : r = (o, q.step) := stopped
    have whole : events = run := by
      simp [all, result, Progress.step, log]
    rw [whole, result]
    refine ⟨account, ?_, ?_⟩
    · constructor
      · rintro ⟨v, value⟩
        exact absurd value (failed v)
      · rintro ⟨n, last⟩
        exact absurd (List.mem_of_getLast? last) (running n)
    · intro i n found
      exact absurd (List.mem_of_getElem? found) (running n)

/-- One name had been made from `y` before, so the second step makes `y2`. -/
example :
    let defs : Bindings :=
      (∅ : Bindings).insert "k" (.lam "x" (.lam "y" (.app (.var "x") (.var "y"))))
    let start : Workspace := { supply := Supply.empty.advance "y" }
    match evaluate defs { maxSteps := some 2 } (.app (.var "k") (.var "y")) start with
    | (_, p) => p.log.toList =
        [.expanded "k", .reduced "x" 2, .minted "y" "y2", .renamed "y" "y2", .finished 2] := by
  cbv

end EagerLambda
