import EagerLambda.Proofs.Substitution

/-!
# When a substitution renames

A function conflicts with a substitution if its parameter is free in the value, and neither it nor
a function around it has the name of the substitution for its parameter. A substitution makes a
fresh name exactly if the term has such a function, and is plain replacement otherwise
(`renames_exactly_on_conflict`). A fresh name is longer than the parameter it is made from, so a
renamed function never comes out as it went in, even if its new name is in use already.
-/

namespace EagerLambda.Term

/-- The term has a function of parameter `y` in it, and the functions around that one have the
parameters `outer`, the outermost first. -/
inductive Binds : Term → List Name → Name → Prop where
  | here (y : Name) (b : Term) : Binds (lam y b) [] y
  | body {y z : Name} {b : Term} {outer : List Name} :
    Binds b outer z → Binds (lam y b) (y :: outer) z
  | function {f : Term} {z : Name} {outer : List Name} (a : Term) :
    Binds f outer z → Binds (app f a) outer z
  | argument {a : Term} {z : Name} {outer : List Name} (f : Term) :
    Binds a outer z → Binds (app f a) outer z

/-- A function of the term, given by its parameter and those around it, that would capture a free
name of `v` if `v` is put for the free `x` of the term. -/
structure Conflicting (t : Term) (x : Name) (v : Term) (outer : List Name) (y : Name) : Prop where
  binds : t.Binds outer y
  other : y ≠ x
  free : v.Free y
  reached : x ∉ outer

variable {t v : Term} {x y : Name} {outer : List Name}

/-! ### Conflicting functions -/

theorem Conflicting.conflicts (conflicting : t.Conflicting x v outer y) : t.Conflicts x v := by
  obtain ⟨binds, other, free, reached⟩ := conflicting
  induction binds with
  | here y b => exact ⟨other, Or.inl free⟩
  | body _ ih =>
    have notHere := List.ne_of_not_mem_cons reached
    have inBody := List.not_mem_of_not_mem_cons reached
    exact ⟨Ne.symm notHere, Or.inr (ih other free inBody)⟩
  | function a _ ih => exact Or.inl (ih other free reached)
  | argument f _ ih => exact Or.inr (ih other free reached)

theorem exists_conflicting (conflicts : t.Conflicts x v) :
    ∃ outer y, t.Conflicting x v outer y := by
  induction t with
  | var z => exact conflicts.elim
  | lam z b ih =>
    obtain ⟨other, free | inner⟩ := conflicts
    · exact ⟨[], z, .here z b, other, free, List.not_mem_nil⟩
    · obtain ⟨outer, y, found⟩ := ih inner
      exact ⟨z :: outer, y, .body found.binds, found.other, found.free,
        List.not_mem_cons_of_ne_of_not_mem (Ne.symm other) found.reached⟩
  | app f a ihf iha =>
    rcases conflicts with left | right
    · obtain ⟨outer, y, found⟩ := ihf left
      exact ⟨outer, y, .function a found.binds, found.other, found.free, found.reached⟩
    · obtain ⟨outer, y, found⟩ := iha right
      exact ⟨outer, y, .argument f found.binds, found.other, found.free, found.reached⟩

theorem conflicts_iff : t.Conflicts x v ↔ ∃ outer y, t.Conflicting x v outer y := by
  constructor
  · exact exists_conflicting
  · rintro ⟨outer, y, conflicting⟩
    exact conflicting.conflicts

/-- The way down to the first function that is renamed. -/
theorem conflicts_induction {motive : Term → Prop}
    (renamed : ∀ y b, y ≠ x → y ∈ v.freeNames → motive (lam y b))
    (passed : ∀ y b, y ≠ x → y ∉ v.freeNames → motive b → motive (lam y b))
    (left : ∀ f a, motive f → motive (app f a)) (right : ∀ f a, motive a → motive (app f a))
    (conflicts : t.Conflicts x v) : motive t := by
  induction t with
  | var y => exact conflicts.elim
  | lam y b ih =>
    obtain ⟨other, here⟩ := conflicts
    by_cases mem : y ∈ v.freeNames
    · exact renamed y b other mem
    · have inner := here.resolve_left fun free => mem (mem_freeNames.mpr free)
      exact passed y b other mem (ih inner)
  | app f a ihf iha =>
    rcases conflicts with inFunction | inArgument
    · exact left f a (ihf inFunction)
    · exact right f a (iha inArgument)

/-! ### What a conflict leads to -/

/-- A function whose parameter is free in the value is tried again under a name that was made from
its parameter. -/
theorem exists_retry (other : y ≠ x) (mem : y ∈ v.freeNames) (b : Term) (w : Workspace) :
    ∃ c w₁, (lam y b).substitute x v w = (lam (w.supply.next y) c).substitute x v w₁ ∧
      (w.supply.advance y).Le w₁.supply := by
  have le := b.le_substitute y (var (w.supply.next y))
    ((w.mint y).2.record (.renamed y (w.supply.next y)))
  rw [substitute_lam_of_mem other mem]
  exact ⟨_, _, rfl, le⟩

theorem count_lt_of_conflicts (conflicts : t.Conflicts x v) (w : Workspace) :
    ∃ y, w.supply.count y < (t.substitute x v w).2.supply.count y := by
  revert w
  refine conflicts_induction (motive := fun t => ∀ w : Workspace,
    ∃ y, w.supply.count y < (t.substitute x v w).2.supply.count y) ?_ ?_ ?_ ?_ conflicts
  · intro y b other mem w
    obtain ⟨c, w₁, retry, le⟩ := exists_retry other mem b w
    have made : w.supply.count y < (w.supply.advance y).count y := by simp [Supply.count_advance]
    rw [retry]
    exact ⟨y, Nat.lt_of_lt_of_le made (Nat.le_trans (le y) (le_substitute _ x v w₁ y))⟩
  · intro y b other mem body w
    rw [substitute_lam_of_not_mem other mem]
    exact body w
  · intro f a function w
    obtain ⟨y, lt⟩ := function w
    rw [substitute_app]
    exact ⟨y, Nat.lt_of_lt_of_le lt (le_substitute a x v _ y)⟩
  · intro f a argument w
    obtain ⟨y, lt⟩ := argument (f.substitute x v w).2
    rw [substitute_app]
    exact ⟨y, Nat.lt_of_le_of_lt (le_substitute f x v w y) lt⟩

/-- A function stays a function, and its parameter gets no shorter. -/
theorem substitute_lam_longer (y : Name) (b : Term) (x : Name) (v : Term) (w : Workspace) :
    ∃ z c, ((lam y b).substitute x v w).1 = lam z c ∧ y.length ≤ z.length := by
  generalize same : lam y b = t
  revert y b
  refine substitute_induction (motive := fun t x v w => ∀ y b, lam y b = t →
    ∃ z c, (t.substitute x v w).1 = lam z c ∧ y.length ≤ z.length) ?_ ?_ ?_ ?_ ?_ t x v w
  · rintro _ _ _ _ _ _ ⟨⟩
  · rintro _ _ _ _ _ _ _ _ _ ⟨⟩
  · rintro x b v w _ _ ⟨⟩
    rw [substitute_lam_self]
    exact ⟨x, b, rfl, Nat.le_refl _⟩
  · rintro y c x v w hx hv _ _ _ ⟨⟩
    rw [substitute_lam_of_not_mem hx hv]
    exact ⟨y, _, rfl, Nat.le_refl _⟩
  · rintro y c x v w hx hv new start renamed _ retry _ _ ⟨⟩
    rw [substitute_lam_of_mem hx hv]
    obtain ⟨z, c, result, longer⟩ := retry new renamed.1 rfl
    have made := w.length_lt_length_mint y
    exact ⟨z, c, result, Nat.le_of_lt (Nat.lt_of_lt_of_le made longer)⟩

theorem substitute_ne_of_conflicts (conflicts : t.Conflicts x v) (w : Workspace) :
    (t.substitute x v w).1 ≠ t := by
  revert w
  refine conflicts_induction (motive := fun t => ∀ w : Workspace, (t.substitute x v w).1 ≠ t)
    ?_ ?_ ?_ ?_ conflicts
  · intro y b other mem w same
    obtain ⟨c, w₁, retry, -⟩ := exists_retry other mem b w
    obtain ⟨z, d, result, longer⟩ := substitute_lam_longer (w.supply.next y) c x v w₁
    have made := w.supply.length_lt_length_next y
    -- Whatever the retry does, the parameter that comes out is longer than `y`.
    rw [retry, result] at same
    obtain ⟨rfl, -⟩ := lam.inj same
    omega
  · intro y b other mem body w same
    rw [substitute_lam_of_not_mem other mem] at same
    exact body w (lam.inj same).2
  · intro f a function w same
    rw [substitute_app] at same
    exact function w (app.inj same).1
  · intro f a argument w same
    rw [substitute_app] at same
    exact argument _ (app.inj same).2

/-! ### No conflict -/

theorem replace_of_not_free (absent : ¬ t.Free x) (v : Term) : t.replace x v = t := by
  induction t with
  | var y => exact if_neg fun same => absent same.symm
  | lam y b ih =>
    rw [replace]
    split
    · rfl
    · next other => rw [ih fun free => absent ⟨Ne.symm other, free⟩]
  | app f a ihf iha =>
    rw [replace, ihf fun free => absent (Or.inl free), iha fun free => absent (Or.inr free)]

theorem supply_substitute_eq_iff (t : Term) (x : Name) (v : Term) (w : Workspace) :
    (t.substitute x v w).2.supply = w.supply ↔ ¬ t.Conflicts x v := by
  constructor
  · intro kept conflicts
    obtain ⟨y, lt⟩ := count_lt_of_conflicts conflicts w
    rw [kept] at lt
    exact Nat.lt_irrefl _ lt
  · intro apart
    rw [substitute_of_not_conflicts apart]

theorem substitute_eq_self_iff (absent : ¬ t.Free x) (v : Term) (w : Workspace) :
    (t.substitute x v w).1 = t ↔ ¬ t.Conflicts x v := by
  constructor
  · intro same conflicts
    exact substitute_ne_of_conflicts conflicts w same
  · intro apart
    rw [substitute_of_not_conflicts apart, replace_of_not_free absent]

/-- Substitution makes a fresh name exactly if the term has a conflicting function. If it has none,
as always if the value has no free name, then every free `x` is replaced and nothing else happens,
in the term or in the workspace. A term without a free `x` stays as it is exactly if it has no
conflicting function. -/
theorem renames_exactly_on_conflict (t : Term) (x : Name) (v : Term) (w : Workspace) :
    ((t.substitute x v w).2.supply = w.supply ↔ ¬ ∃ outer y, t.Conflicting x v outer y) ∧
      ((¬ ∃ outer y, t.Conflicting x v outer y) → t.substitute x v w = (t.replace x v, w)) ∧
      ((∀ y, ¬ v.Free y) → t.substitute x v w = (t.replace x v, w)) ∧
      (¬ t.Free x →
        ((t.substitute x v w).1 = t ↔ ¬ ∃ outer y, t.Conflicting x v outer y)) := by
  rw [← conflicts_iff]
  refine ⟨supply_substitute_eq_iff t x v w, fun apart => substitute_of_not_conflicts apart w, ?_,
    fun absent => substitute_eq_self_iff absent v w⟩
  intro closed
  apply substitute_of_not_conflicts
  intro conflicts
  obtain ⟨y, -, free⟩ := exists_mem_names_of_conflicts conflicts
  exact closed y free

/-- The value `y` is put for the free `x`, and the function of parameter `y` below that of
parameter `x` is left alone. A value without free names is put below a function of the same
parameter as one of its own. Where no `x` is free, the function of parameter `y` is renamed all the
same. -/
theorem renames_only_unshadowed_parameter :
    let w : Workspace := {}
    let t : Term := .app (.var "x") (.lam "x" (.lam "y" (.app (.var "x") (.var "y"))))
    let identity : Term := .lam "y" (.var "y")
    (¬ ∃ outer y, t.Conflicting "x" (.var "y") outer y) ∧
      t.substitute "x" (.var "y") w =
        (.app (.var "y") (.lam "x" (.lam "y" (.app (.var "x") (.var "y")))), w) ∧
      (∀ y, ¬ identity.Free y) ∧
      (lam "y" (.app (.var "x") (.var "y"))).substitute "x" identity w =
        (.lam "y" (.app identity (.var "y")), w) ∧
      ¬ identity.Free "x" ∧ (∃ outer y, identity.Conflicting "x" (.var "y") outer y) ∧
      (identity.substitute "x" (.var "y") w).1 ≠ identity := by
  intro w t identity
  have apart : ¬ ∃ outer y, t.Conflicting "x" (.var "y") outer y := by
    rw [← conflicts_iff]
    rintro (⟨⟨⟩⟩ | ⟨other, -⟩)
    exact other rfl
  have closed : ∀ y, ¬ identity.Free y := by
    rintro y ⟨other, free⟩
    exact other free
  have conflict : ∃ outer y, identity.Conflicting "x" (.var "y") outer y :=
    ⟨[], "y", .here "y" _, by decide, rfl, by simp⟩
  obtain ⟨-, plain, -, -⟩ := renames_exactly_on_conflict t "x" (.var "y") w
  obtain ⟨-, -, always, -⟩ :=
    renames_exactly_on_conflict (lam "y" (.app (.var "x") (.var "y"))) "x" identity w
  obtain ⟨-, -, -, vacuous⟩ := renames_exactly_on_conflict identity "x" (.var "y") w
  exact ⟨apart, plain apart, closed, always closed, closed "x", conflict,
    fun same => (vacuous (closed "x")).mp same conflict⟩

end EagerLambda.Term
