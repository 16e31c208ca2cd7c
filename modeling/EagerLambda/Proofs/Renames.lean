import EagerLambda.Proofs.Hygiene

/-!
# The workspace of a substitution

A substitution renames parameters one after another and does nothing else to the workspace
(`exists_renames`): the supply advances at the old parameters, and the log gets a minting and a
renaming for each. What it does never depends on the log (`substitute_behind`).
-/

namespace EagerLambda

namespace Workspace

/-- The workspace with an earlier log in front of its own. -/
def behind (w : Workspace) (log : Array Event) : Workspace :=
  { w with log := log ++ w.log }

theorem mint_behind (w : Workspace) (log : Array Event) (base : Name) :
    (w.behind log).mint base = ((w.mint base).1, (w.mint base).2.behind log) := by
  simp only [mint, behind, Array.append_push]

theorem record_behind (w : Workspace) (log : Array Event) (e : Event) :
    (w.behind log).record e = (w.record e).behind log := by
  simp only [record, behind, Array.append_push]

theorem eq_behind (w : Workspace) : w = ({ supply := w.supply } : Workspace).behind w.log := by
  simp [behind]

/-- The workspace after the parameters `ys` have been renamed in turn. -/
def afterRenames (w : Workspace) (ys : List Name) : Workspace :=
  ys.foldl afterRename w

theorem afterRenames_append (w : Workspace) (ys zs : List Name) :
    w.afterRenames (ys ++ zs) = (w.afterRenames ys).afterRenames zs :=
  List.foldl_append

/-- Renamings are logged behind what was there, and none of their events is a step. -/
theorem log_afterRenames (w : Workspace) (ys : List Name) :
    ∃ events, (w.afterRenames ys).log.toList = w.log.toList ++ events ∧
      events.countP Event.isStep = 0 := by
  induction ys generalizing w with
  | nil => exact ⟨[], by simp [afterRenames], rfl⟩
  | cons y ys ih =>
    obtain ⟨events, log, noSteps⟩ := ih (w.afterRename y)
    have first : (w.afterRename y).log.toList =
        w.log.toList ++ [.minted y (w.supply.next y), .renamed y (w.supply.next y)] := by
      simp [afterRename, mint, record]
    refine ⟨.minted y (w.supply.next y) :: .renamed y (w.supply.next y) :: events, ?_, ?_⟩
    · rw [afterRenames, List.foldl_cons, ← afterRenames, log, first, List.append_assoc]
      rfl
    · simpa [Event.isStep] using noSteps

end Workspace

namespace Term

theorem exists_renames (t : Term) (x : Name) (v : Term) (w : Workspace) :
    ∃ ys, (t.substitute x v w).2 = w.afterRenames ys := by
  refine substitute_induction
    (motive := fun t x v w => ∃ ys, (t.substitute x v w).2 = w.afterRenames ys)
    ?_ ?_ ?_ ?_ ?_ t x v w
  · intro y x v w
    exact ⟨[], by rw [substitute_var]; rfl⟩
  · intro f a x v w ⟨ys, function⟩ ⟨zs, argument⟩
    refine ⟨ys ++ zs, ?_⟩
    rw [substitute_app, argument, function, Workspace.afterRenames_append]
  · intro x b v w
    exact ⟨[], by rw [substitute_lam_self]; rfl⟩
  · intro y b x v w hx hv ⟨ys, body⟩
    exact ⟨ys, by rw [substitute_lam_of_not_mem hx hv, body]⟩
  · intro y b x v w hx hv new start renamed ⟨ys, rename⟩ ⟨zs, retry⟩
    -- The renamed body and the retry each rename parameters of their own.
    refine ⟨y :: ys ++ zs, ?_⟩
    rw [substitute_lam_of_mem hx hv]
    show (substitute _ x v renamed.2).2 = _
    rw [retry, rename, Workspace.afterRenames_append]
    rfl

/-- A substitution reads the supply and not the log. -/
theorem substitute_behind (t : Term) (x : Name) (v : Term) (w : Workspace) (log : Array Event) :
    t.substitute x v (w.behind log) =
      ((t.substitute x v w).1, (t.substitute x v w).2.behind log) := by
  refine substitute_induction (motive := fun t x v w => t.substitute x v (w.behind log) =
    ((t.substitute x v w).1, (t.substitute x v w).2.behind log)) ?_ ?_ ?_ ?_ ?_ t x v w
  · intro y x v w
    rw [substitute_var, substitute_var]
  · intro f a x v w function argument
    rw [substitute_app, function, argument, substitute_app]
  · intro x b v w
    rw [substitute_lam_self, substitute_lam_self]
  · intro y b x v w hx hv body
    rw [substitute_lam_of_not_mem hx hv, body, substitute_lam_of_not_mem hx hv]
  · intro y b x v w hx hv new start renamed rename retry
    rw [substitute_lam_of_mem hx hv, substitute_lam_of_mem hx hv]
    simp only [Workspace.mint_behind, Workspace.record_behind]
    rw [rename]
    exact retry

end Term

end EagerLambda
