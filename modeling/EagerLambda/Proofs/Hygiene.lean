import EagerLambda.Proofs.FreshNames
import EagerLambda.Proofs.Nameless

/-!
# Substitution without capture

Fresh names are not compared with the names that a term already uses. `Hygienic` says when that
does no harm. Under it every function is renamed at most once, the rename is plain replacement
(`Hygienic.substitute_lam`), and the substitution is the capture-free one up to the names of
parameters (`Hygienic.nameless_substitute`).
-/

namespace EagerLambda

/-- The supply can still make the name `z` from a free name of `v`. -/
def Supply.Mintable (s : Supply) (v : Term) (z : Name) : Prop :=
  ∃ base k, v.Free base ∧ s.count base < k ∧ z = base.numbered k

theorem Supply.Mintable.of_le {s s' : Supply} {v : Term} {z : Name} (le : s.Le s')
    (mintable : s'.Mintable v z) : s.Mintable v z := by
  obtain ⟨base, k, free, above, same⟩ := mintable
  exact ⟨base, k, free, Nat.lt_of_le_of_lt (le base) above, same⟩

namespace Term

/-- The names that the supply can still make from the free names of `v` are not in use, and no free
name of `v` is another one with a number behind it. -/
structure Hygienic (t : Term) (x : Name) (v : Term) (s : Supply) : Prop where
  names : ∀ z ∈ t.names, ¬ s.Mintable v z
  target : ¬ s.Mintable v x
  apart : ∀ b c k, v.Free b → v.Free c → 0 < k → c ≠ b.numbered k

namespace Hygienic

variable {t f a b v : Term} {x y : Name} {s s' : Supply}

theorem of_le (le : s.Le s') (h : Hygienic t x v s) : Hygienic t x v s' where
  names z mem mintable := h.names z mem (mintable.of_le le)
  target mintable := h.target (mintable.of_le le)
  apart := h.apart

theorem left (h : Hygienic (app f a) x v s) : Hygienic f x v s where
  names z mem := h.names z (List.mem_append_left _ mem)
  target := h.target
  apart := h.apart

theorem right (h : Hygienic (app f a) x v s) : Hygienic a x v s where
  names z mem := h.names z (List.mem_append_right _ mem)
  target := h.target
  apart := h.apart

theorem body (h : Hygienic (lam y b) x v s) : Hygienic b x v s where
  names z mem := h.names z (List.mem_cons_of_mem y mem)
  target := h.target
  apart := h.apart

/-! ### The new name of a parameter -/

theorem next_mintable (free : v.Free y) : s.Mintable v (s.next y) :=
  ⟨y, s.count y + 1, free, Nat.lt_succ_self _, s.next_eq_numbered y⟩

theorem next_not_mem (h : Hygienic (lam y b) x v s) (free : v.Free y) : s.next y ∉ b.names :=
  fun mem => h.body.names _ mem (next_mintable free)

theorem next_ne (h : Hygienic t x v s) (free : v.Free y) : s.next y ≠ x :=
  fun same => h.target (same ▸ next_mintable free)

theorem next_not_free (h : Hygienic t x v s) (free : v.Free y) : ¬ v.Free (s.next y) :=
  fun other => h.apart y _ _ free other (Nat.succ_pos _) (s.next_eq_numbered y)

/-- A name just made cannot be made again, also not from another free name of `v`. -/
theorem next_not_mintable (h : Hygienic t x v s) (free : v.Free y) :
    ¬ (s.advance y).Mintable v (s.next y) := by
  rintro ⟨base, k, baseFree, above, same⟩
  rw [s.next_eq_numbered] at same
  rcases Name.eq_or_numbered_of_numbered_eq (Nat.succ_pos _) (by omega) same with
    ⟨rfl, rfl⟩ | ⟨m, pos, numbered, -⟩ | ⟨m, pos, numbered, -⟩
  · rw [Supply.count_advance, if_pos rfl] at above
    omega
  · exact h.apart y base m free baseFree pos numbered
  · exact h.apart base y m baseFree free pos numbered

theorem renamed (h : Hygienic (lam y b) x v s) (free : v.Free y) :
    Hygienic (b.replace y (var (s.next y))) x v (s.advance y) where
  names z mem mintable := by
    rcases mem_names_replace mem with old | new
    · exact h.body.names z old (mintable.of_le (.advance s y))
    · obtain rfl := List.mem_singleton.mp new
      exact h.next_not_mintable free mintable
  target mintable := h.target (mintable.of_le (.advance s y))
  apart := h.apart

end Hygienic

end Term

/-- The workspace in which the body of a renamed function is worked on. -/
def Workspace.afterRename (w : Workspace) (y : Name) : Workspace :=
  (w.mint y).2.record (.renamed y (w.supply.next y))

namespace Term

/-- A function whose parameter is free in `v` is renamed once, by plain replacement. -/
theorem Hygienic.substitute_lam {b v : Term} {x y : Name} {w : Workspace}
    (h : Hygienic (lam y b) x v w.supply) (other : y ≠ x) (free : v.Free y) :
    (lam y b).substitute x v w =
      let new := w.supply.next y
      let r := (b.replace y (var new)).substitute x v (w.afterRename y)
      (lam new r.1, r.2) := by
  have rename := substitute_var_of_not_mem (y := y) (h.next_not_mem free) (w.afterRename y)
  have notMem : w.supply.next y ∉ v.freeNames := by
    intro mem
    exact h.next_not_free free (mem_freeNames.mp mem)
  rw [substitute_lam_of_mem other (mem_freeNames.mpr free)]
  change (lam (w.supply.next y)
      (b.substitute y (var (w.supply.next y)) (w.afterRename y)).1).substitute x v
    (b.substitute y (var (w.supply.next y)) (w.afterRename y)).2 = _
  rw [rename, substitute_lam_of_not_mem (h.next_ne free) notMem]

theorem Hygienic.induction {x : Name} {v : Term} {motive : Term → Workspace → Prop}
    (var : ∀ y w, motive (var y) w)
    (app : ∀ f a w, motive f w → motive a (f.substitute x v w).2 → motive (app f a) w)
    (shadowed : ∀ b w, motive (lam x b) w)
    (passed : ∀ y b w, y ≠ x → ¬ v.Free y → motive b w → motive (lam y b) w)
    (renamed : ∀ y b w, y ≠ x → v.Free y → Hygienic (lam y b) x v w.supply →
      motive (b.replace y (.var (w.supply.next y))) (w.afterRename y) → motive (lam y b) w)
    {t : Term} {w : Workspace} (h : Hygienic t x v w.supply) : motive t w := by
  -- The renamed body is no part of the function, but it has the same size as the body.
  induction hn : t.size using Nat.strongRecOn generalizing t w with
  | _ n ih =>
    subst hn
    cases t with
    | var y => exact var y w
    | app f a =>
      exact app f a w (ih _ (by simp only [size]; omega) h.left rfl)
        (ih _ (by simp only [size]; omega) (h.right.of_le (f.le_substitute x v w)) rfl)
    | lam y b =>
      by_cases same : y = x
      · subst same
        exact shadowed b w
      by_cases free : v.Free y
      · refine renamed y b w same free h (ih _ ?_ (h.renamed free) rfl)
        rw [size_replace_var, size]
        omega
      · exact passed y b w same free (ih _ (by simp only [size]; omega) h.body rfl)

/-- A substitution without capture is the capture-free one on nameless terms. The function whose
parameter is `x` stands between the functions `inner`, which the substitution has entered, and the
functions `outer` around it. -/
theorem Hygienic.nameless_substitute {t v : Term} {x : Name} {w : Workspace}
    (h : Hygienic t x v w.supply) (inner outer : List Name) (hx : x ∉ inner)
    (apart : ∀ y, v.Free y → y ∉ inner) :
    (t.substitute x v w).1.nameless (inner ++ outer) =
      (t.nameless (inner ++ x :: outer)).instantiate (v.nameless outer) inner.length := by
  revert inner
  refine Hygienic.induction (motive := fun t w => ∀ inner : List Name, x ∉ inner →
    (∀ y, v.Free y → y ∉ inner) → (t.substitute x v w).1.nameless (inner ++ outer) =
      (t.nameless (inner ++ x :: outer)).instantiate (v.nameless outer) inner.length)
    ?_ ?_ ?_ ?_ ?_ h
  · intro y w inner hx apart
    rw [substitute_var]
    by_cases same : y = x
    · subst same
      rw [if_pos rfl, nameless_var_append_of_not_mem hx, nameless_var_cons_self]
      have placed := nameless_shift (t := v) [] inner outer (fun y free _ => apart y free)
      simpa [Nameless.shift, Nameless.instantiate] using placed
    · have absent : ¬ (var y).Free x := fun free => same (Eq.symm free)
      rw [if_neg same, nameless_instantiate_absent _ _ _ fun free => absurd free absent]
  · intro f a w ihf iha inner hx apart
    rw [substitute_app, nameless, nameless, Nameless.instantiate, ihf inner hx apart,
      iha inner hx apart]
  · intro b w inner hx apart
    have absent : ¬ (lam x b).Free x := fun free => free.1 rfl
    rw [substitute_lam_self, nameless_instantiate_absent _ _ _ fun free => absurd free absent]
  · intro y b w other notFree ih inner hx apart
    have notMem : y ∉ v.freeNames := fun mem => notFree (mem_freeNames.mp mem)
    rw [substitute_lam_of_not_mem other notMem, nameless, nameless, Nameless.instantiate]
    have body := ih (y :: inner) (by simp [hx, Ne.symm other]) (by
      intro z free mem
      rcases List.mem_cons.mp mem with rfl | mem
      · exact notFree free
      · exact apart z free mem)
    exact congrArg Nameless.lam body
  · intro y b w other free h ih inner hx apart
    rw [h.substitute_lam other free, nameless, nameless, Nameless.instantiate]
    have body := ih (w.supply.next y :: inner) (by simp [hx, Ne.symm (h.next_ne free)]) (by
      intro z zFree mem
      rcases List.mem_cons.mp mem with rfl | mem
      · exact h.next_not_free free zFree
      · exact apart z zFree mem)
    have rename := nameless_replace_var [] (inner ++ x :: outer) (h.next_not_mem free)
      (by simp : y ∉ []) (by simp)
    rw [List.nil_append, List.nil_append] at rename
    rw [List.cons_append, List.cons_append, rename] at body
    exact congrArg Nameless.lam body

end Term

/-- The supply has made the name `z` from a free name of `v`. -/
def Supply.Made (s : Supply) (v : Term) (z : Name) : Prop :=
  ∃ base k, v.Free base ∧ 0 < k ∧ k ≤ s.count base ∧ z = base.numbered k

theorem Supply.Made.of_le {s s' : Supply} {v : Term} {z : Name} (le : s.Le s')
    (made : s.Made v z) : s'.Made v z := by
  obtain ⟨base, k, free, pos, below, same⟩ := made
  exact ⟨base, k, free, pos, Nat.le_trans below (le base), same⟩

theorem Supply.made_next {s : Supply} {v : Term} {y : Name} (free : v.Free y) :
    (s.advance y).Made v (s.next y) := by
  have count : (s.advance y).count y = s.count y + 1 := by
    rw [count_advance, if_pos rfl]
  exact ⟨y, s.count y + 1, free, Nat.succ_pos _, by omega, s.next_eq_numbered y⟩

/-- The names after a substitution were there before it or have been made for it. -/
theorem Term.Hygienic.mem_names_substitute {t v : Term} {x : Name} {w : Workspace}
    (h : Hygienic t x v w.supply) {z : Name} (mem : z ∈ (t.substitute x v w).1.names) :
    z ∈ t.names ∨ z ∈ v.names ∨ (t.substitute x v w).2.supply.Made v z := by
  revert mem
  refine Hygienic.induction (motive := fun t w => z ∈ (t.substitute x v w).1.names →
    z ∈ t.names ∨ z ∈ v.names ∨ (t.substitute x v w).2.supply.Made v z) ?_ ?_ ?_ ?_ ?_ h
  · intro y w mem
    rw [substitute_var] at mem
    by_cases same : y = x
    · rw [if_pos same] at mem
      exact Or.inr (Or.inl mem)
    · rw [if_neg same] at mem
      exact Or.inl mem
  · intro f a w ihf iha mem
    rw [substitute_app] at mem ⊢
    rcases List.mem_append.mp mem with mem | mem
    · rcases ihf mem with old | value | made
      · exact Or.inl (List.mem_append_left _ old)
      · exact Or.inr (Or.inl value)
      · exact Or.inr (Or.inr (made.of_le (a.le_substitute x v _)))
    · rcases iha mem with old | value | made
      · exact Or.inl (List.mem_append_right _ old)
      · exact Or.inr (Or.inl value)
      · exact Or.inr (Or.inr made)
  · intro b w mem
    rw [substitute_lam_self] at mem
    exact Or.inl mem
  · intro y b w other notFree ih mem
    rw [substitute_lam_of_not_mem other (fun mem => notFree (mem_freeNames.mp mem))] at mem ⊢
    rcases List.mem_cons.mp mem with rfl | mem
    · exact Or.inl List.mem_cons_self
    · exact (ih mem).imp_left (List.mem_cons_of_mem y)
  · intro y b w other free h ih mem
    rw [h.substitute_lam other free] at mem ⊢
    have new : ((b.replace y (var (w.supply.next y))).substitute x v
        (w.afterRename y)).2.supply.Made v (w.supply.next y) :=
      (Supply.made_next free).of_le (le_substitute _ x v (w.afterRename y))
    rcases List.mem_cons.mp mem with rfl | mem
    · exact Or.inr (Or.inr new)
    · rcases ih mem with old | rest
      · rcases mem_names_replace old with old | isNew
        · exact Or.inl (List.mem_cons_of_mem y old)
        · obtain rfl := List.mem_singleton.mp isNew
          exact Or.inr (Or.inr new)
      · exact Or.inr rest

end EagerLambda
