import EagerLambda.Proofs.Hygiene

/-!
# Substitution up to the names of parameters

In the nameless calculus nothing can be captured, and `Nameless.replaceFree` puts a term for a free
name without any care. Substitution of named terms has the same nameless form as that, provided that
the names it can make are not in use (`substitute_is_capture_free`).
-/

namespace EagerLambda

/-- Puts `v` for the free name `x` of a term that stands inside `k` functions. -/
def Nameless.replaceFree (t : Nameless) (x : Name) (v : Nameless) (k : Nat) : Nameless :=
  match t with
  | free y => if y = x then v.shift k 0 else free y
  | index i => index i
  | lam b => lam (b.replaceFree x v (k + 1))
  | app f a => app (f.replaceFree x v k) (a.replaceFree x v k)

namespace Term

theorem replaceFree_absent {t : Term} {x : Name} {scope : List Name}
    (absent : t.Free x → x ∈ scope) (v : Nameless) (k : Nat) :
    (t.nameless scope).replaceFree x v k = t.nameless scope := by
  induction t generalizing scope k with
  | var y =>
    by_cases mem : y ∈ scope
    · rw [nameless_var_of_mem mem, Nameless.replaceFree]
    · have other : y ≠ x := by
        rintro rfl
        exact mem (absent rfl)
      rw [nameless_var_of_not_mem mem, Nameless.replaceFree, if_neg other]
  | lam y b ih =>
    rw [nameless, Nameless.replaceFree]
    congr 1
    apply ih
    intro free
    by_cases same : x = y
    · rw [same]
      exact List.mem_cons_self
    · exact List.mem_cons_of_mem y (absent ⟨same, free⟩)
  | app f a ihf iha =>
    rw [nameless, Nameless.replaceFree, ihf fun free => absent (Or.inl free),
      iha fun free => absent (Or.inr free)]

theorem instantiate_eq_replaceFree {t : Term} {x : Name} (inner outer : List Name) (v : Nameless)
    (hin : x ∉ inner) (hout : x ∉ outer) :
    (t.nameless (inner ++ x :: outer)).instantiate v inner.length =
      (t.nameless (inner ++ outer)).replaceFree x v inner.length := by
  -- Where `x` is not free both sides leave a term as it is, also below a function of parameter `x`.
  have unchanged {u : Term} (inner : List Name) (absent : ¬ u.Free x) :
      (u.nameless (inner ++ x :: outer)).instantiate v inner.length =
        (u.nameless (inner ++ outer)).replaceFree x v inner.length := by
    rw [nameless_instantiate_absent inner outer v fun free => absurd free absent,
      replaceFree_absent fun free => absurd free absent]
  induction t generalizing inner with
  | var y =>
    by_cases same : y = x
    · subst same
      have absent : y ∉ inner ++ outer := by simp [hin, hout]
      rw [nameless_var_append_of_not_mem hin, nameless_var_cons_self,
        nameless_var_of_not_mem absent, Nameless.replaceFree, if_pos rfl]
      simp [Nameless.shift, Nameless.instantiate]
    · exact unchanged inner fun free => same (Eq.symm free)
  | lam y b ih =>
    by_cases same : y = x
    · subst same
      exact unchanged inner fun free => free.1 rfl
    · have body := ih (y :: inner) (by simp [hin, Ne.symm same])
      rw [nameless, nameless, Nameless.instantiate, Nameless.replaceFree]
      exact congrArg Nameless.lam body
  | app f a ihf iha =>
    rw [nameless, nameless, Nameless.instantiate, Nameless.replaceFree, ihf inner hin,
      iha inner hin]

theorem hygienic_of_digits {t v : Term} {x : Name} {s : Supply}
    (fresh : ∀ z, z ∈ t.names ∨ v.Free z ∨ z = x → ¬ s.Mintable v z)
    (apart : ∀ b c digits, v.Free b → v.Free c → digits ≠ "" →
      (∀ d ∈ digits.toList, d.isDigit = true) → c ≠ b ++ digits) : Hygienic t x v s where
  names z mem := fresh z (Or.inl mem)
  target := fresh x (Or.inr (Or.inr rfl))
  apart b c k freeB freeC _ := by
    refine apart b c k.repr freeB freeC ?_ ?_
    · intro empty
      have := Nat.length_repr_pos (n := k)
      rw [empty] at this
      simp at this
    · intro d mem
      rw [Nat.toList_repr] at mem
      exact Nat.isDigit_of_mem_toDigits (by decide) (by decide) mem

/-- Substitution has the nameless form of the substitution that cannot capture anything. It is asked
that no name in play is one that the supply can still make from a free name of the value, and that
no free name of the value is another one with digits behind it. -/
theorem substitute_is_capture_free {t v : Term} {x : Name} {w : Workspace}
    (fresh : ∀ z, z ∈ t.names ∨ v.Free z ∨ z = x → ¬ w.supply.Mintable v z)
    (apart : ∀ b c digits, v.Free b → v.Free c → digits ≠ "" →
      (∀ d ∈ digits.toList, d.isDigit = true) → c ≠ b ++ digits) :
    (t.substitute x v w).1.nameless [] = (t.nameless []).replaceFree x (v.nameless []) 0 := by
  have hygienic : Hygienic t x v w.supply := hygienic_of_digits fresh apart
  have captureFree := hygienic.nameless_substitute [] [] (by simp) (by simp)
  exact captureFree.trans (instantiate_eq_replaceFree [] [] _ (by simp) (by simp))

/-- Both parameters are renamed, and the name `y1` that the supply has made before is in use. -/
theorem substitute_cascading_renames :
    let t : Term := .lam "y" (.lam "z" (.app (.app (.app (.var "x") (.var "y")) (.var "z"))
      (.var "y1")))
    let v : Term := .app (.var "y") (.var "z")
    let w : Workspace := { supply := Supply.empty.advance "y" }
    (∀ z, z ∈ t.names ∨ v.Free z ∨ z = "x" → ¬ w.supply.Mintable v z) ∧
      (t.substitute "x" v w).1.nameless [] =
        .lam (.lam (.app (.app (.app (.app (.free "y") (.free "z")) (.index 1)) (.index 0))
          (.free "y1"))) := by
  intro t v w
  have free {b : Name} (h : v.Free b) : b = "y" ∨ b = "z" := h
  have fresh : ∀ z, z ∈ t.names ∨ v.Free z ∨ z = "x" → ¬ w.supply.Mintable v z := by
    rintro z used ⟨base, k, baseFree, above, numbered⟩
    have digits : z.toList = base.toList ++ Nat.toDigits 10 k := by
      rw [numbered, Name.toList_numbered]
    have used : z = "x" ∨ z = "y" ∨ z = "z" ∨ z = "y1" := by
      simp only [t, v, names, Free, List.cons_append, List.nil_append, List.mem_cons,
        List.not_mem_nil] at used
      tauto
    -- Only `y1` is long enough, and the supply has made it already.
    rcases free baseFree with rfl | rfl <;> rcases used with rfl | rfl | rfl | rfl <;>
      simp [Nat.toDigits_ne_nil] at digits
    have one : k = 1 := toDigits_injective digits.symm
    simp [w, Supply.count_advance] at above
    omega
  have apart : ∀ b c digits, v.Free b → v.Free c → digits ≠ "" →
      (∀ d ∈ digits.toList, d.isDigit = true) → c ≠ b ++ digits := by
    intro b c digits freeB freeC nonempty _ same
    have lists := congrArg String.toList same
    rcases free freeB with rfl | rfl <;> rcases free freeC with rfl | rfl <;>
      simp [nonempty] at lists
  exact ⟨fresh, substitute_is_capture_free fresh apart⟩

end Term

end EagerLambda
