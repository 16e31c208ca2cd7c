import EagerLambda.Proofs.Hygiene

/-!
# The calls of a substitution

`Request.Gives` is substitution as a set of rules, so what a request gives has a finite tree of the
calls that lead to it. `Request.Calls` says which request is made for the sake of which other one.
The retry of a renamed function is a request for a term that another request gave and that is no
smaller than the one before, so the tree is not one over the parts of the term.

No chain of calls goes on for ever and every request gives exactly one result
(`substitution_ends`), as renaming keeps the size of a body, and as a parameter gets longer with
each retry while only the free names of the value lead to one.
-/

namespace EagerLambda

/-- What a substitution is asked to do: put `value` for every free `name` in `term`. -/
structure Request where
  term : Term
  name : Name
  value : Term
  workspace : Workspace

namespace Request

/-- The request for the body of a function with a fresh name for its parameter `y`. -/
def renameBody (y : Name) (b : Term) (w : Workspace) : Request where
  term := b
  name := y
  value := .var (w.supply.next y)
  workspace := w.afterRename y

/-- The result of a request, one rule for each way a substitution can go. -/
inductive Gives : Request → Term × Workspace → Prop where
  | found (x : Name) (v : Term) (w : Workspace) : Gives ⟨.var x, x, v, w⟩ (v, w)
  | other {y x : Name} (v : Term) (w : Workspace) : y ≠ x → Gives ⟨.var y, x, v, w⟩ (.var y, w)
  | app {f a f' a' v : Term} {x : Name} {w w₁ w₂ : Workspace} :
    Gives ⟨f, x, v, w⟩ (f', w₁) → Gives ⟨a, x, v, w₁⟩ (a', w₂) →
      Gives ⟨.app f a, x, v, w⟩ (.app f' a', w₂)
  | shadowed (x : Name) (b v : Term) (w : Workspace) :
    Gives ⟨.lam x b, x, v, w⟩ (.lam x b, w)
  | passed {y x : Name} {b b' v : Term} {w w₁ : Workspace} :
    y ≠ x → y ∉ v.freeNames → Gives ⟨b, x, v, w⟩ (b', w₁) →
      Gives ⟨.lam y b, x, v, w⟩ (.lam y b', w₁)
  | renamed {y x : Name} {b b' v : Term} {w w₁ : Workspace} {r : Term × Workspace} :
    y ≠ x → y ∈ v.freeNames → Gives (renameBody y b w) (b', w₁) →
      Gives ⟨.lam (w.supply.next y) b', x, v, w₁⟩ r → Gives ⟨.lam y b, x, v, w⟩ r

/-- The first request is made again for the function with its parameter renamed. -/
inductive Retries : Request → Request → Prop where
  | retry {y x : Name} {b b' v : Term} {w w₁ : Workspace} :
    y ≠ x → y ∈ v.freeNames → Gives (renameBody y b w) (b', w₁) →
      Retries ⟨.lam y b, x, v, w⟩ ⟨.lam (w.supply.next y) b', x, v, w₁⟩

/-- The first request makes the second one. -/
inductive Calls : Request → Request → Prop where
  | function (f a : Term) (x : Name) (v : Term) (w : Workspace) :
    Calls ⟨.app f a, x, v, w⟩ ⟨f, x, v, w⟩
  | argument {f f' v : Term} {x : Name} {w w₁ : Workspace} (a : Term) :
    Gives ⟨f, x, v, w⟩ (f', w₁) → Calls ⟨.app f a, x, v, w⟩ ⟨a, x, v, w₁⟩
  | body {y x : Name} {v : Term} (b : Term) (w : Workspace) :
    y ≠ x → y ∉ v.freeNames → Calls ⟨.lam y b, x, v, w⟩ ⟨b, x, v, w⟩
  | rename {y x : Name} {v : Term} (b : Term) (w : Workspace) :
    y ≠ x → y ∈ v.freeNames → Calls ⟨.lam y b, x, v, w⟩ (renameBody y b w)
  | retry {c d : Request} : Retries c d → Calls c d

/-! ### Results -/

theorem Gives.eq_substitute {c : Request} {r : Term × Workspace} (gives : c.Gives r) :
    c.term.substitute c.name c.value c.workspace = r := by
  induction gives with
  | found x v w => rw [Term.substitute_var, if_pos rfl]
  | other v w other => rw [Term.substitute_var, if_neg other]
  | app _ _ function argument => rw [Term.substitute_app, function, argument]
  | shadowed x b v w => rw [Term.substitute_lam_self]
  | passed other notFree _ body => rw [Term.substitute_lam_of_not_mem other notFree, body]
  | @renamed y x b b' v w w₁ r other free _ _ rename retry =>
    have rename : b.substitute y (.var (w.supply.next y)) (w.afterRename y) = (b', w₁) := rename
    rw [Term.substitute_lam_of_mem other free]
    change (Term.lam (w.supply.next y)
        (b.substitute y (.var (w.supply.next y)) (w.afterRename y)).1).substitute x v
      (b.substitute y (.var (w.supply.next y)) (w.afterRename y)).2 = r
    rw [rename]
    exact retry

theorem gives_substitute (t : Term) (x : Name) (v : Term) (w : Workspace) :
    Gives ⟨t, x, v, w⟩ (t.substitute x v w) := by
  refine Term.substitute_induction
    (motive := fun t x v w => Gives ⟨t, x, v, w⟩ (t.substitute x v w)) ?_ ?_ ?_ ?_ ?_ t x v w
  · intro y x v w
    rw [Term.substitute_var]
    by_cases same : y = x
    · subst same
      rw [if_pos rfl]
      exact .found y v w
    · rw [if_neg same]
      exact .other v w same
  · intro f a x v w function argument
    rw [Term.substitute_app]
    exact .app function argument
  · intro x b v w
    rw [Term.substitute_lam_self]
    exact .shadowed x b v w
  · intro y b x v w other notFree body
    rw [Term.substitute_lam_of_not_mem other notFree]
    exact .passed other notFree body
  · intro y b x v w other free new start renamed rename retry
    rw [Term.substitute_lam_of_mem other free]
    exact .renamed other free rename retry

theorem gives_iff (t : Term) (x : Name) (v : Term) (w : Workspace) (r : Term × Workspace) :
    Gives ⟨t, x, v, w⟩ r ↔ t.substitute x v w = r := by
  constructor
  · intro gives
    exact gives.eq_substitute
  · rintro rfl
    exact gives_substitute t x v w

/-! ### Chains of calls -/

theorem size_of_renameBody {y : Name} {b b' : Term} {w w₁ : Workspace}
    (gives : (renameBody y b w).Gives (b', w₁)) : b'.size = b.size := by
  have size := b.size_substitute_var y (w.supply.next y) (w.afterRename y)
  rw [(gives_iff ..).mp gives] at size
  exact size

theorem weight_lt_of_calls {c d : Request} (calls : c.Calls d) :
    d.term.weight d.value.freeNames < c.term.weight c.value.freeNames := by
  cases calls with
  | function f a x v w => exact Term.weight_lt (by simp only [Term.size]; omega)
  | argument a _ => exact Term.weight_lt (by simp only [Term.size]; omega)
  | body b w _ _ => exact Term.weight_lt (by simp only [Term.size]; omega)
  | rename b w _ free => exact Term.weight_rename_lt free
  | retry retries =>
    -- The function is as large as before, and only the length of its parameter counts.
    obtain ⟨_, free, renamed⟩ := retries
    exact Term.weight_retry_lt (size_of_renameBody renamed) free (Supply.length_lt_length_next _ _)

theorem Retries.longer {c d : Request} (retries : c.Retries d) :
    ∃ y b y' b', c.term = .lam y b ∧ d.term = .lam y' b' ∧
      y.length < y'.length ∧ b'.size = b.size := by
  obtain ⟨_, _, renamed⟩ := retries
  exact ⟨_, _, _, _, rfl, rfl, Supply.length_lt_length_next _ _, size_of_renameBody renamed⟩

theorem Retries.value {c d : Request} (retries : c.Retries d) : d.value = c.value := by
  obtain ⟨⟩ := retries
  rfl

theorem Retries.rivals_lt {names : List Name} {c d : Request} (retries : c.Retries d)
    (cover : ∀ y, c.value.Free y → y ∈ names) : d.term.rivals names < c.term.rivals names := by
  obtain ⟨_, free, _⟩ := retries
  exact Term.rivals_lt _ _ (cover _ (Term.mem_freeNames.mp free))
    (Supply.length_lt_length_next _ _)

/-- Each retry of a chain uses up a free name of the value, of another length than those before. -/
theorem length_le_rivals {names : List Name} {c : Request} {cs : List Request}
    (chain : (c :: cs).IsChain Retries) (cover : ∀ y, c.value.Free y → y ∈ names) :
    cs.length ≤ c.term.rivals names := by
  induction cs generalizing c with
  | nil => exact Nat.zero_le _
  | cons d cs ih =>
    obtain ⟨first, rest⟩ := List.isChain_cons_cons.mp chain
    have shorter := ih rest fun y free => cover y (first.value ▸ free)
    exact Nat.lt_of_le_of_lt shorter (first.rivals_lt cover)

end Request

/-- Substitution ends on every input. No chain of calls goes on for ever, and every request gives
one result, which is the substitution. Renaming keeps the size of a term, a retry is about a longer
parameter, and at one function there are no more retries in a row than there are free names in the
value: no more than any list that has them all is long. -/
theorem substitution_ends :
    WellFounded (fun called caller : Request => caller.Calls called) ∧
      (∀ (t : Term) (x : Name) (v : Term) (w : Workspace) (r : Term × Workspace),
        Request.Gives ⟨t, x, v, w⟩ r ↔ t.substitute x v w = r) ∧
      (∀ (t : Term) (y new : Name) (w : Workspace),
        (t.substitute y (.var new) w).1.size = t.size) ∧
      (∀ caller called : Request, caller.Retries called →
        ∃ y b y' b', caller.term = .lam y b ∧ called.term = .lam y' b' ∧
          y.length < y'.length ∧ b'.size = b.size) ∧
      ∀ (first : Request) (retries : List Request), (first :: retries).IsChain Request.Retries →
        ∀ names : List Name, (∀ y, first.value.Free y → y ∈ names) →
          retries.length ≤ names.length := by
  refine ⟨?_, Request.gives_iff, Term.size_substitute_var, fun _ _ => Request.Retries.longer, ?_⟩
  · exact Subrelation.wf Request.weight_lt_of_calls
      (measure fun c : Request => c.term.weight c.value.freeNames).wf
  · intro first retries chain names cover
    exact Nat.le_trans (Request.length_le_rivals chain cover) (first.term.rivals_le names)

/-- The value has two free names, and the function is renamed twice in a row: the fresh name for `y`
is the other one. -/
theorem two_retries_at_one_function :
    let v : Term := .app (.var "y") (.var "y1")
    let w : Workspace := {}
    let first : Request := ⟨.lam "y" (.app (.var "x") (.var "y")), "x", v, w⟩
    let second : Request := ⟨.lam "y1" (.app (.var "x") (.var "y1")), "x", v, w.afterRename "y"⟩
    let third : Request :=
      ⟨.lam "y11" (.app (.var "x") (.var "y11")), "x", v, (w.afterRename "y").afterRename "y1"⟩
    [first, second, third].IsChain Request.Retries ∧ v.freeNames = ["y1", "y"] ∧
      [second, third].length ≤ v.freeNames.length := by
  intro v w first second third
  have one : w.supply.next "y" = "y1" := by
    show Supply.empty.next "y" = "y1"
    cbv
  have two : (w.afterRename "y").supply.next "y1" = "y11" := by
    show (Supply.empty.advance "y").next "y1" = "y11"
    cbv
  -- Renaming the body finds its parameter behind the `x` that it passes over.
  have renames (y new : Name) (w : Workspace) (next : w.supply.next y = new) (other : "x" ≠ y) :
      (Request.renameBody y (.app (.var "x") (.var y)) w).Gives
        (.app (.var "x") (.var new), w.afterRename y) := by
    subst next
    exact .app (.other _ _ other) (.found _ _ _)
  have firstRetry : first.Retries second := by
    have retry := Request.Retries.retry (x := "x") (v := v) (by decide) (by decide)
      (renames "y" "y1" w one (by decide))
    rwa [one] at retry
  have secondRetry : second.Retries third := by
    have retry := Request.Retries.retry (x := "x") (v := v) (by decide) (by decide)
      (renames "y1" "y11" _ two (by decide))
    rwa [two] at retry
  have chain : [first, second, third].IsChain Request.Retries :=
    .cons_cons firstRetry (.cons_cons secondRetry (.singleton third))
  obtain ⟨-, -, -, -, bound⟩ := substitution_ends
  exact ⟨chain, by decide, bound first _ chain v.freeNames fun y => Term.mem_freeNames.mpr⟩

end EagerLambda
