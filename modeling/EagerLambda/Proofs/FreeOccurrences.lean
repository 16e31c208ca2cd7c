import EagerLambda.Proofs.Refinement

/-!
# Free occurrences

A substitution puts a copy of its value for each free occurrence of its name, and leaves every other
free occurrence where it was (`freeCount_substitute`). Parameters may be confused with each other on
the way, as fresh names are not compared with the names in use. But a free name is lost only to a
fresh one that equals it, so it is enough that the supply cannot make the free names again.
-/

namespace EagerLambda

namespace Supply

/-- The supply can still make the name `z`, from some base. -/
def CanMake (s : Supply) (z : Name) : Prop :=
  ∃ base k, s.count base < k ∧ z = base.numbered k

/-- The supply can still make `z` from a base that is as long as a free name of `v`. A substitution
of `v` makes names from the free names of `v` and, inside the bodies it renames, from names that it
has made before: all of these are bases of such a length. -/
def Reaches (s : Supply) (v : Term) (z : Name) : Prop :=
  ∃ base k, (∃ y, v.Free y ∧ y.length ≤ base.length) ∧ s.count base < k ∧ z = base.numbered k

variable {s s' : Supply} {v : Term} {y z : Name}

theorem Reaches.canMake (reaches : s.Reaches v z) : s.CanMake z := by
  obtain ⟨base, k, -, above, same⟩ := reaches
  exact ⟨base, k, above, same⟩

theorem Reaches.of_le (le : s.Le s') (reaches : s'.Reaches v z) : s.Reaches v z := by
  obtain ⟨base, k, long, above, same⟩ := reaches
  exact ⟨base, k, long, Nat.lt_of_le_of_lt (le base) above, same⟩

theorem reaches_next (free : v.Free y) : s.Reaches v (s.next y) :=
  ⟨y, s.count y + 1, ⟨y, free, Nat.le_refl _⟩, Nat.lt_succ_self _, s.next_eq_numbered y⟩

theorem not_canMake_of_plain (plain : z.endsInDigit = false) : ¬ s.CanMake z := by
  rintro ⟨base, k, -, same⟩
  exact Name.ne_numbered plain base k same

/-- What the renaming of a parameter reaches, the substitution that asked for it reaches too. -/
theorem Reaches.of_rename (free : v.Free y)
    (reaches : (s.advance y).Reaches (.var (s.next y)) z) : s.Reaches v z := by
  obtain ⟨base, k, ⟨new, isNew, long⟩, above, same⟩ := reaches
  obtain rfl : new = s.next y := isNew
  have longer := s.length_lt_length_next y
  exact ⟨base, k, ⟨y, free, by omega⟩, Nat.lt_of_le_of_lt (Le.advance s y base) above, same⟩

/-- The renaming of a parameter makes names that are longer than the parameter. -/
theorem not_reaches_old (s s' : Supply) (y : Name) : ¬ s'.Reaches (.var (s.next y)) y := by
  rintro ⟨base, k, ⟨new, isNew, long⟩, -, same⟩
  obtain rfl : new = s.next y := isNew
  have longer := s.length_lt_length_next y
  have length : y.length = base.length + k.repr.length := by
    rw [same, Name.numbered, String.length_append]
  omega

end Supply

namespace Term

/-! ### Counting -/

theorem freeCount_eq_zero {t : Term} {z : Name} (absent : ¬ t.Free z) : t.freeCount z = 0 := by
  induction t with
  | var y => exact if_neg absent
  | lam y b ih =>
    rw [freeCount]
    split
    · rfl
    · next other => exact ih fun free => absent ⟨other, free⟩
  | app f a ihf iha =>
    rw [freeCount, ihf fun free => absent (Or.inl free), iha fun free => absent (Or.inr free)]

theorem freeCount_lam_of_ne {y z : Name} (other : z ≠ y) (b : Term) :
    (lam y b).freeCount z = b.freeCount z :=
  if_neg other

theorem freeCount_of_absent {t : Term} {x z : Name} {n : Nat} (absent : ¬ t.Free x) :
    (if z = x then 0 else t.freeCount z) + t.freeCount x * n = t.freeCount z := by
  have none := freeCount_eq_zero absent
  rw [none, Nat.zero_mul, Nat.add_zero]
  split
  · next same => rw [same, none]
  · rfl

/-- A function keeps its free occurrences if its parameter gets a name that is not free in it. -/
theorem freeCount_lam_renamed {b b' : Term} {y new z : Name}
    (renamed : b'.freeCount z =
      (if z = y then 0 else b.freeCount z) + b.freeCount y * (var new).freeCount z)
    (fresh : z = new → ¬ (lam y b).Free z) :
    (lam new b').freeCount z = (lam y b).freeCount z := by
  by_cases isNew : z = new
  · rw [freeCount_eq_zero (fresh isNew), freeCount, if_pos isNew]
  · have none : (var new).freeCount z = 0 := if_neg isNew
    rw [none, Nat.mul_zero, Nat.add_zero] at renamed
    rw [freeCount_lam_of_ne isNew, renamed, freeCount]

theorem free_lam_renamed {b : Term} {y new z : Name} {w : Workspace}
    (free : (lam new (b.substitute y (var new) w).1).Free z) : (lam y b).Free z := by
  obtain ⟨notNew, free⟩ := free
  rcases free_substitute free with ⟨free, notOld⟩ | isNew
  · exact ⟨notOld, free⟩
  · exact absurd isNew notNew

/-! ### Substitution -/

/-- The free occurrences of `z` after a substitution are those of the term and, for each free
occurrence of `x` there, those of the value. Neither `x` nor a `z` that is free in the term may be a
name that the substitution can make. -/
theorem freeCount_substitute {t v : Term} {x z : Name} {w : Workspace}
    (target : ¬ w.supply.Reaches v x) (kept : t.Free z → ¬ w.supply.Reaches v z) :
    (t.substitute x v w).1.freeCount z =
      (if z = x then 0 else t.freeCount z) + t.freeCount x * v.freeCount z := by
  -- The renaming of a parameter is a substitution for it, and the supply may well be able to make
  -- that parameter again, from a shorter base: this is why the hypotheses are about `Reaches`.
  revert z
  revert target
  refine substitute_induction (motive := fun t x v w => ¬ w.supply.Reaches v x →
    ∀ {z}, (t.Free z → ¬ w.supply.Reaches v z) → (t.substitute x v w).1.freeCount z =
      (if z = x then 0 else t.freeCount z) + t.freeCount x * v.freeCount z) ?_ ?_ ?_ ?_ ?_ t x v w
  · intro y x v w _ z _
    rw [substitute_var]
    by_cases same : y = x
    · subst same
      have one : (var y).freeCount y = 1 := if_pos rfl
      have others : (if z = y then 0 else (var y).freeCount z) = 0 := by simp [freeCount]
      rw [if_pos rfl, one, others, Nat.one_mul, Nat.zero_add]
    · have absent : ¬ (var y).Free x := fun free => same (Eq.symm free)
      rw [if_neg same, freeCount_of_absent absent]
  · intro f a x v w function argument target z kept
    have le := f.le_substitute x v w
    rw [substitute_app]
    simp only [freeCount]
    rw [function target fun free => kept (Or.inl free),
      argument (fun reaches => target (reaches.of_le le))
        (fun free reaches => kept (Or.inr free) (reaches.of_le le)), Nat.add_mul]
    split <;> omega
  · intro x b v w _ z _
    have absent : ¬ (lam x b).Free x := fun free => free.1 rfl
    rw [substitute_lam_self, freeCount_of_absent absent]
  · intro y b x v w hx hv body target z kept
    rw [substitute_lam_of_not_mem hx hv, freeCount_lam_of_ne (Ne.symm hx)]
    by_cases same : z = y
    · -- The parameter itself is not free in the value, so no copy of the value adds to it.
      subst same
      have absent : v.freeCount z = 0 := freeCount_eq_zero fun free => hv (mem_freeNames.mpr free)
      simp [freeCount, absent]
    · rw [freeCount_lam_of_ne same, freeCount_lam_of_ne same]
      exact body target fun free => kept ⟨same, free⟩
  · intro y b x v w hx hv new start renamed rename retry target z kept
    have free : v.Free y := mem_freeNames.mp hv
    have le : start.supply.Le renamed.2.supply := b.le_substitute y (var new) start
    have old : ¬ start.supply.Reaches (var new) y := w.supply.not_reaches_old _ y
    -- The name of the substitution and `z` are both out of reach, so the renaming keeps them.
    have function {u : Name} (kept : (lam y b).Free u → ¬ w.supply.Reaches v u) :
        (lam new renamed.1).freeCount u = (lam y b).freeCount u := by
      apply freeCount_lam_renamed
      · apply rename old
        intro inBody reaches
        by_cases same : u = y
        · exact old (same ▸ reaches)
        · exact kept ⟨same, inBody⟩ (reaches.of_rename free)
      · rintro rfl isFree
        exact kept isFree (Supply.reaches_next free)
    have grown {u : Name} (reaches : renamed.2.supply.Reaches v u) : w.supply.Reaches v u :=
      (reaches.of_le le).of_le (.advance w.supply y)
    have again := retry (fun reaches => target (grown reaches))
      (fun isFree reaches => kept (free_lam_renamed isFree) (grown reaches))
    rw [function kept, function fun _ => target] at again
    rw [substitute_lam_of_mem hx hv]
    exact again

/-- Substitution accounts for every free occurrence. It frees no name, whatever the names look like.
If the supply can make neither `x` nor a free name of the term again, then each name occurs free as
often as it did, except for `x`, and once more for every free occurrence of `x` in the term and of
the name in the value. -/
theorem substitute_accounts_for_free_occurrences (t v : Term) (x : Name) (w : Workspace) :
    (∀ z, (t.substitute x v w).1.Free z → t.Free z ∧ z ≠ x ∨ v.Free z) ∧
      (¬ w.supply.CanMake x → (∀ z, t.Free z → ¬ w.supply.CanMake z) →
        ∀ z, (t.substitute x v w).1.freeCount z =
          (if z = x then 0 else t.freeCount z) + t.freeCount x * v.freeCount z) := by
  refine ⟨fun z free => free_substitute free, ?_⟩
  intro target kept z
  apply freeCount_substitute
  · exact fun reaches => target reaches.canMake
  · exact fun free reaches => kept z free reaches.canMake

/-- The parameter `y` is renamed twice, as its first new name `y1` is free in the value, and the
parameter `y1` of the inner function gives way to it. -/
theorem substitute_pair_accounts_for_free_occurrences :
    let t : Term := .lam "y" (.lam "y1" (.app (.app (.var "x") (.var "y"))
      (.app (.var "y1") (.var "z"))))
    let v : Term := .app (.var "y") (.var "y1")
    let r : Term := .lam "y12" (.lam "y11" (.app (.app (.app (.var "y") (.var "y1")) (.var "y12"))
      (.app (.var "y11") (.var "z"))))
    ¬ Supply.empty.CanMake "x" ∧ (∀ z, t.Free z → ¬ Supply.empty.CanMake z) ∧
      (t.substitute "x" v {}).1 = r ∧
      ∀ z, r.freeCount z =
        (if z = "x" then 0 else t.freeCount z) + t.freeCount "x" * v.freeCount z := by
  intro t v r
  have target : ¬ Supply.empty.CanMake "x" := Supply.not_canMake_of_plain (by decide)
  have kept : ∀ z, t.Free z → ¬ Supply.empty.CanMake z := by
    rintro z ⟨notY, notY1, (rfl | isY) | (isY1 | rfl)⟩
    · exact target
    · exact absurd isY notY
    · exact absurd isY1 notY1
    · exact Supply.not_canMake_of_plain (by decide)
  have result : (t.substitute "x" v {}).1 = r := by
    unfold t v r
    cbv
  have accounts := (substitute_accounts_for_free_occurrences t v "x" {}).2 target kept
  rw [result] at accounts
  exact ⟨target, kept, result, accounts⟩

end Term

end EagerLambda
