import EagerLambda.Substitution

/-!
# Facts about every substitution

What a substitution keeps whatever the names look like: it frees no name (`free_substitute`), brings
in only names that were there or are made from such (`forall_names_substitute`), and lowers no
count (`le_substitute`). A substitution that meets no parameter it would have to rename is plain
replacement (`substitute_of_not_conflicts`).
-/

namespace EagerLambda

/-! ### Counts -/

def Supply.Le (s s' : Supply) : Prop :=
  ∀ base, s.count base ≤ s'.count base

namespace Supply.Le

theorem refl (s : Supply) : s.Le s :=
  fun _ => Nat.le_refl _

theorem trans {s₁ s₂ s₃ : Supply} (first : s₁.Le s₂) (second : s₂.Le s₃) : s₁.Le s₃ :=
  fun base => Nat.le_trans (first base) (second base)

theorem advance (s : Supply) (base : Name) : s.Le (s.advance base) := by
  intro other
  rw [count_advance]
  split
  · next same => rw [same]; omega
  · exact Nat.le_refl _

end Supply.Le

namespace Term

theorem le_substitute (t : Term) (x : Name) (v : Term) (w : Workspace) :
    w.supply.Le (t.substitute x v w).2.supply := by
  refine substitute_induction
    (motive := fun t x v w => w.supply.Le (t.substitute x v w).2.supply) ?_ ?_ ?_ ?_ ?_ t x v w
  · intro y x v w
    rw [substitute_var]
    exact .refl _
  · intro f a x v w ihf iha
    rw [substitute_app]
    exact ihf.trans iha
  · intro x b v w
    rw [substitute_lam_self]
    exact .refl _
  · intro y b x v w hx hv ih
    rw [substitute_lam_of_not_mem hx hv]
    exact ih
  · intro y b x v w hx hv new start renamed ihRename ihRetry
    rw [substitute_lam_of_mem hx hv]
    have minted : w.supply.Le start.supply := .advance w.supply y
    exact minted.trans (ihRename.trans ihRetry)

/-! ### Free names -/

theorem names_of_free {t : Term} {z : Name} (free : t.Free z) : z ∈ t.names := by
  induction t with
  | var y => exact List.mem_singleton.mpr free
  | lam y b ih => exact List.mem_cons_of_mem y (ih free.2)
  | app f a ihf iha =>
    rcases free with free | free
    · exact List.mem_append_left _ (ihf free)
    · exact List.mem_append_right _ (iha free)

/-- A name that is free after a substitution was free in the term or is free in the value. -/
theorem free_substitute {t v : Term} {x z : Name} {w : Workspace}
    (free : (t.substitute x v w).1.Free z) : t.Free z ∧ z ≠ x ∨ v.Free z := by
  revert free
  refine substitute_induction
    (motive := fun t x v w => (t.substitute x v w).1.Free z → t.Free z ∧ z ≠ x ∨ v.Free z)
    ?_ ?_ ?_ ?_ ?_ t x v w
  · intro y x v w free
    rw [substitute_var] at free
    by_cases same : y = x
    · rw [if_pos same] at free
      exact Or.inr free
    · rw [if_neg same] at free
      have equal : z = y := free
      exact Or.inl ⟨free, equal ▸ same⟩
  · intro f a x v w ihf iha free
    rw [substitute_app] at free
    rcases free with free | free
    · rcases ihf free with ⟨left, other⟩ | value
      · exact Or.inl ⟨Or.inl left, other⟩
      · exact Or.inr value
    · rcases iha free with ⟨right, other⟩ | value
      · exact Or.inl ⟨Or.inr right, other⟩
      · exact Or.inr value
  · intro x b v w free
    rw [substitute_lam_self] at free
    exact Or.inl ⟨free, free.1⟩
  · intro y b x v w hx hv ih free
    rw [substitute_lam_of_not_mem hx hv] at free
    rcases ih free.2 with ⟨body, other⟩ | value
    · exact Or.inl ⟨⟨free.1, body⟩, other⟩
    · exact Or.inr value
  · intro y b x v w hx hv new start renamed ihRename ihRetry free
    rw [substitute_lam_of_mem hx hv] at free
    rcases ihRetry free with ⟨⟨notNew, body⟩, other⟩ | value
    · rcases ihRename body with ⟨body, notOld⟩ | isNew
      · exact Or.inl ⟨⟨notOld, body⟩, other⟩
      · exact absurd isNew notNew
    · exact Or.inr value

/-- A property of names that fresh names inherit from their bases is kept by substitution. -/
theorem forall_names_substitute {P : Name → Prop}
    (inherited : ∀ (s : Supply) (base : Name), P base → P (s.next base)) {t v : Term}
    {x : Name} {w : Workspace} (term : ∀ z ∈ t.names, P z) (value : ∀ z ∈ v.names, P z) :
    ∀ z ∈ (t.substitute x v w).1.names, P z := by
  revert term value
  refine substitute_induction (motive := fun t x v w => (∀ z ∈ t.names, P z) →
    (∀ z ∈ v.names, P z) → ∀ z ∈ (t.substitute x v w).1.names, P z) ?_ ?_ ?_ ?_ ?_ t x v w
  · intro y x v w term value
    rw [substitute_var]
    by_cases same : y = x
    · rw [if_pos same]
      exact value
    · rw [if_neg same]
      exact term
  · intro f a x v w ihf iha term value z mem
    rw [substitute_app] at mem
    rcases List.mem_append.mp mem with mem | mem
    · exact ihf (fun z mem => term z (List.mem_append_left _ mem)) value z mem
    · exact iha (fun z mem => term z (List.mem_append_right _ mem)) value z mem
  · intro x b v w term value
    rw [substitute_lam_self]
    exact term
  · intro y b x v w hx hv ih term value z mem
    rw [substitute_lam_of_not_mem hx hv] at mem
    rcases List.mem_cons.mp mem with rfl | mem
    · exact term z List.mem_cons_self
    · exact ih (fun z mem => term z (List.mem_cons_of_mem y mem)) value z mem
  · intro y b x v w hx hv new start renamed ihRename ihRetry term value
    rw [substitute_lam_of_mem hx hv]
    have keptNew : P new := inherited w.supply y (term y List.mem_cons_self)
    apply ihRetry _ value
    intro z mem
    rcases List.mem_cons.mp mem with rfl | mem
    · exact keptNew
    · apply ihRename (fun z mem => term z (List.mem_cons_of_mem y mem)) _ z mem
      intro z mem
      obtain rfl := List.mem_singleton.mp mem
      exact keptNew

/-! ### Replacement without renaming -/

/-- Puts `v` for every free `x` and leaves every parameter as it is. -/
def replace (t : Term) (x : Name) (v : Term) : Term :=
  match t with
  | var y => if y = x then v else var y
  | lam y b => if y = x then lam y b else lam y (b.replace x v)
  | app f a => app (f.replace x v) (a.replace x v)

/-- Some function outside the functions of parameter `x` has a parameter that is free in `v`. -/
def Conflicts (t : Term) (x : Name) (v : Term) : Prop :=
  match t with
  | var _ => False
  | lam y b => y ≠ x ∧ (v.Free y ∨ b.Conflicts x v)
  | app f a => f.Conflicts x v ∨ a.Conflicts x v

theorem substitute_of_not_conflicts {t v : Term} {x : Name} (apart : ¬ t.Conflicts x v)
    (w : Workspace) : t.substitute x v w = (t.replace x v, w) := by
  induction t with
  | var y =>
    rw [substitute_var, replace]
  | lam y b ih =>
    by_cases same : y = x
    · subst same
      rw [substitute_lam_self, replace, if_pos rfl]
    · have notFree : y ∉ v.freeNames := fun mem => apart ⟨same, Or.inl (mem_freeNames.mp mem)⟩
      have body := ih fun conflict => apart ⟨same, Or.inr conflict⟩
      rw [substitute_lam_of_not_mem same notFree, body, replace, if_neg same]
  | app f a ihf iha =>
    rw [substitute_app, ihf fun conflict => apart (Or.inl conflict),
      iha fun conflict => apart (Or.inr conflict), replace]

theorem exists_mem_names_of_conflicts {t v : Term} {x : Name} (conflict : t.Conflicts x v) :
    ∃ y ∈ t.names, v.Free y := by
  induction t with
  | var y => exact conflict.elim
  | lam y b ih =>
    rcases conflict.2 with free | inner
    · exact ⟨y, List.mem_cons_self, free⟩
    · obtain ⟨z, mem, free⟩ := ih inner
      exact ⟨z, List.mem_cons_of_mem y mem, free⟩
  | app f a ihf iha =>
    rcases conflict with left | right
    · obtain ⟨z, mem, free⟩ := ihf left
      exact ⟨z, List.mem_append_left _ mem, free⟩
    · obtain ⟨z, mem, free⟩ := iha right
      exact ⟨z, List.mem_append_right _ mem, free⟩

/-- Renaming to a name that occurs nowhere makes no further names. -/
theorem substitute_var_of_not_mem {t : Term} {y new : Name} (fresh : new ∉ t.names)
    (w : Workspace) : t.substitute y (var new) w = (t.replace y (var new), w) := by
  apply substitute_of_not_conflicts
  intro conflict
  obtain ⟨z, mem, free⟩ := exists_mem_names_of_conflicts conflict
  have same : z = new := free
  exact fresh (same ▸ mem)

theorem mem_names_replace {t v : Term} {x z : Name} (mem : z ∈ (t.replace x v).names) :
    z ∈ t.names ∨ z ∈ v.names := by
  induction t with
  | var y =>
    rw [replace] at mem
    split at mem
    · exact Or.inr mem
    · exact Or.inl mem
  | lam y b ih =>
    rw [replace] at mem
    split at mem
    · exact Or.inl mem
    · rcases List.mem_cons.mp mem with rfl | mem
      · exact Or.inl List.mem_cons_self
      · exact (ih mem).imp_left (List.mem_cons_of_mem y)
  | app f a ihf iha =>
    rcases List.mem_append.mp mem with mem | mem
    · exact (ihf mem).imp_left (List.mem_append_left _)
    · exact (iha mem).imp_left (List.mem_append_right _)

theorem size_replace_var (t : Term) (x z : Name) : (t.replace x (var z)).size = t.size := by
  induction t with
  | var y =>
    rw [replace]
    split <;> rfl
  | lam y b ih =>
    rw [replace]
    split
    · rfl
    · rw [size, size, ih]
  | app f a ihf iha => rw [replace, size, size, ihf, iha]

end Term

end EagerLambda
