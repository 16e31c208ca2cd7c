import EagerLambda.StepLimit
import EagerLambda.Proofs.Substitution

/-!
# The nameless calculus

Terms whose bound variables are indices, with the usual capture-free substitution, and a reference
evaluator that takes one step after another. `Term.nameless` forgets the names of parameters: two
terms are equal up to the names of their parameters exactly if they have the same nameless form.
-/

namespace EagerLambda

/-- A term in which `index i` belongs to the function that is the `i`-th one around it, counted
from the inside. Free variables keep their names. -/
inductive Nameless where
  | free (x : Name)
  | index (i : Nat)
  | lam (b : Nameless)
  | app (f a : Nameless)
  deriving DecidableEq, Repr

namespace Nameless

/-- Raises by `n` the indices that point out of the innermost `k` functions. -/
def shift (n k : Nat) : Nameless → Nameless
  | free x => free x
  | index i => if i < k then index i else index (i + n)
  | lam b => lam (b.shift n (k + 1))
  | app f a => app (f.shift n k) (a.shift n k)

/-- Puts `v` for index `k` and takes away the function that the index belongs to. -/
def instantiate (t v : Nameless) (k : Nat) : Nameless :=
  match t with
  | free x => free x
  | index i => if i < k then index i else if i = k then v.shift k 0 else index (i - 1)
  | lam b => lam (b.instantiate v (k + 1))
  | app f a => app (f.instantiate v k) (a.instantiate v k)

/-- The application of the stopped term `f` to the stopped term `a`. -/
def reduce? (f a : Nameless) : Option Nameless :=
  match f with
  | lam b => some (b.instantiate a 0)
  | _ => none

/-- One step of call by value: a bound name is expanded, and an application steps in its function,
then in its argument, and is then reduced. Nothing steps inside a function. -/
def step? (defs : Name → Option Nameless) : Nameless → Option Nameless
  | free x => defs x
  | index _ => none
  | lam _ => none
  | app f a =>
    match step? defs f with
    | some f' => some (app f' a)
    | none =>
      match step? defs a with
      | some a' => some (app f a')
      | none => f.reduce? a

/-- The term that is reached when nothing steps any more, and the number of steps to it, if at most
`budget` steps lead there. -/
def run (defs : Name → Option Nameless) (budget : Nat) (t : Nameless) : Option (Nameless × Nat) :=
  match step? defs t, budget with
  | none, _ => some (t, 0)
  | some _, 0 => none
  | some t', budget + 1 => (run defs budget t').map fun r => (r.1, r.2 + 1)

inductive Outcome where
  | value (v : Nameless) (steps : Nat)
  | exceeded (e : LimitExceeded)
  | unfinished
  deriving DecidableEq, Repr

def evaluate (defs : Name → Option Nameless) (limits : Limits) (t : Nameless) : Outcome :=
  match t.run defs limits.budget with
  | some (v, n) => .value v n
  | none =>
    match limits.maxSteps with
    | some maxSteps => .exceeded ⟨maxSteps⟩
    | none => .unfinished

/-- `t` becomes `v` in `n` steps, and `v` does not step. -/
inductive Stops (defs : Name → Option Nameless) : Nameless → Nat → Nameless → Prop where
  | stop {t : Nameless} : t.step? defs = none → Stops defs t 0 t
  | step {t t' v : Nameless} {n : Nat} : t.step? defs = some t' → Stops defs t' n v →
      Stops defs t (n + 1) v

section
variable {defs : Name → Option Nameless} {f a : Nameless}

theorem step?_app_left {f' : Nameless} (h : f.step? defs = some f') :
    (app f a).step? defs = some (app f' a) := by
  rw [step?, h]

theorem step?_app_right {a' : Nameless} (hf : f.step? defs = none)
    (h : a.step? defs = some a') : (app f a).step? defs = some (app f a') := by
  rw [step?, hf, h]

theorem step?_app_stopped (hf : f.step? defs = none) (ha : a.step? defs = none) :
    (app f a).step? defs = f.reduce? a := by
  rw [step?, hf, ha]

end

theorem run_of_step?_eq_none {defs : Name → Option Nameless} {t : Nameless}
    (h : t.step? defs = none) (budget : Nat) : t.run defs budget = some (t, 0) := by
  unfold run
  rw [h]

theorem run_zero_of_step?_eq_some {defs : Name → Option Nameless} {t t' : Nameless}
    (h : t.step? defs = some t') : t.run defs 0 = none := by
  unfold run
  rw [h]

theorem run_succ_of_step?_eq_some {defs : Name → Option Nameless} {t t' : Nameless}
    (h : t.step? defs = some t') (budget : Nat) :
    t.run defs (budget + 1) = (t'.run defs budget).map fun r => (r.1, r.2 + 1) := by
  rw [run.eq_def, h]

theorem run_eq_some_iff {defs : Name → Option Nameless} {budget n : Nat} {t v : Nameless} :
    t.run defs budget = some (v, n) ↔ Stops defs t n v ∧ n ≤ budget := by
  constructor
  · intro h
    fun_induction run defs budget t generalizing n with
    | case1 t budget next =>
      obtain ⟨rfl, rfl⟩ := Prod.mk.inj (Option.some.inj h)
      exact ⟨.stop next, Nat.zero_le _⟩
    | case2 t t' next => exact absurd h (by simp)
    | case3 t t' budget next ih =>
      obtain ⟨⟨u, m⟩, found, same⟩ := Option.map_eq_some_iff.mp h
      obtain ⟨rfl, rfl⟩ := Prod.mk.inj same
      obtain ⟨stops, le⟩ := ih found
      exact ⟨.step next stops, Nat.succ_le_succ le⟩
  · rintro ⟨stops, le⟩
    induction stops generalizing budget with
    | stop next => exact run_of_step?_eq_none next budget
    | @step t t' v n next _ ih =>
      cases budget with
      | zero => exact absurd le (by omega)
      | succ budget => rw [run_succ_of_step?_eq_some next, ih (by omega), Option.map_some]

theorem evaluate_eq_value_iff {defs : Name → Option Nameless} {limits : Limits} {n : Nat}
    {t v : Nameless} :
    evaluate defs limits t = .value v n ↔ Stops defs t n v ∧ n ≤ limits.budget := by
  rw [← run_eq_some_iff]
  unfold evaluate
  rcases t.run defs limits.budget with _ | ⟨u, m⟩
  · cases limits.maxSteps <;> simp
  · simp

end Nameless

namespace Term

/-- The nameless form of a term inside functions with the given parameters, the innermost first. -/
def nameless (scope : List Name) : Term → Nameless
  | var x => if x ∈ scope then .index (scope.idxOf x) else .free x
  | lam x b => .lam (b.nameless (x :: scope))
  | app f a => .app (f.nameless scope) (a.nameless scope)

/-! ### Variables in a scope -/

section
variable {scope inner outer : List Name} {x y : Name}

theorem nameless_var_of_mem (mem : x ∈ scope) :
    (var x).nameless scope = .index (scope.idxOf x) := if_pos mem

theorem nameless_var_of_not_mem (absent : x ∉ scope) : (var x).nameless scope = .free x :=
  if_neg absent

theorem nameless_var_append_of_mem (mem : x ∈ inner) :
    (var x).nameless (inner ++ outer) = .index (inner.idxOf x) := by
  rw [nameless_var_of_mem (List.mem_append_left _ mem), List.idxOf_append, if_pos mem]

theorem nameless_var_append_of_not_mem (absent : x ∉ inner) :
    (var x).nameless (inner ++ outer) = ((var x).nameless outer).shift inner.length 0 := by
  by_cases mem : x ∈ outer
  · rw [nameless_var_of_mem (List.mem_append_right _ mem), nameless_var_of_mem mem,
      List.idxOf_append, if_neg absent]
    simp [Nameless.shift]
  · rw [nameless_var_of_not_mem (by simp [absent, mem]), nameless_var_of_not_mem mem]
    rfl

theorem nameless_var_cons_self : (var x).nameless (x :: scope) = .index 0 := by
  rw [nameless_var_of_mem List.mem_cons_self, List.idxOf_cons_self]

theorem nameless_var_cons_of_ne (other : x ≠ y) :
    (var x).nameless (y :: scope) = ((var x).nameless scope).shift 1 0 := by
  have absent : x ∉ [y] := by simpa using other
  exact nameless_var_append_of_not_mem absent

theorem nameless_var_skip {z : Name} (hy : x ≠ y) (hz : x ≠ z) :
    (var x).nameless (inner ++ y :: outer) = (var x).nameless (inner ++ z :: outer) := by
  by_cases mem : x ∈ inner
  · rw [nameless_var_append_of_mem mem, nameless_var_append_of_mem mem]
  · rw [nameless_var_append_of_not_mem mem, nameless_var_append_of_not_mem mem,
      nameless_var_cons_of_ne hy, nameless_var_cons_of_ne hz]

end

/-- The nameless form depends on the scope only through the free names of the term. -/
theorem nameless_congr {t : Term} {scope other : List Name}
    (same : ∀ x, t.Free x → (var x).nameless scope = (var x).nameless other) :
    t.nameless scope = t.nameless other := by
  induction t generalizing scope other with
  | var x => exact same x rfl
  | lam y b ih =>
    rw [nameless, nameless]
    congr 1
    apply ih
    intro x free
    by_cases bound : x = y
    · subst bound
      rw [nameless_var_cons_self, nameless_var_cons_self]
    · rw [nameless_var_cons_of_ne bound, nameless_var_cons_of_ne bound, same x ⟨bound, free⟩]
  | app f a ihf iha =>
    rw [nameless, nameless, ihf fun x free => same x (Or.inl free),
      iha fun x free => same x (Or.inr free)]

/-- Functions around a term whose parameters are not free in it only raise indices. -/
theorem nameless_shift {t : Term} (inner between outer : List Name)
    (apart : ∀ x, t.Free x → x ∉ inner → x ∉ between) :
    t.nameless (inner ++ (between ++ outer)) =
      (t.nameless (inner ++ outer)).shift between.length inner.length := by
  induction t generalizing inner with
  | var x =>
    by_cases mem : x ∈ inner
    · rw [nameless_var_append_of_mem mem, nameless_var_append_of_mem mem, Nameless.shift,
        if_pos (List.idxOf_lt_length_of_mem mem)]
    · rw [nameless_var_append_of_not_mem mem, nameless_var_append_of_not_mem mem,
        nameless_var_append_of_not_mem (apart x rfl mem)]
      by_cases bound : x ∈ outer
      · rw [nameless_var_of_mem bound]
        simp only [Nameless.shift, Nat.not_lt_zero, if_false]
        rw [if_neg (by omega), Nat.add_right_comm]
      · rw [nameless_var_of_not_mem bound]
        rfl
  | lam y b ih =>
    have body := ih (y :: inner) (by
      intro x free absent
      obtain ⟨other, absent⟩ := List.ne_and_not_mem_of_not_mem_cons absent
      exact apart x ⟨other, free⟩ absent)
    rw [nameless, nameless, Nameless.shift]
    exact congrArg Nameless.lam body
  | app f a ihf iha =>
    rw [nameless, nameless, Nameless.shift, ihf inner fun x free => apart x (Or.inl free),
      iha inner fun x free => apart x (Or.inr free)]

/-- Nothing is put for a parameter that no free name of the term belongs to. -/
theorem nameless_instantiate_absent {t : Term} {x : Name} (inner outer : List Name) (v : Nameless)
    (absent : t.Free x → x ∈ inner) :
    (t.nameless (inner ++ x :: outer)).instantiate v inner.length =
      t.nameless (inner ++ outer) := by
  induction t generalizing inner with
  | var y =>
    by_cases mem : y ∈ inner
    · rw [nameless_var_append_of_mem mem, nameless_var_append_of_mem mem, Nameless.instantiate,
        if_pos (List.idxOf_lt_length_of_mem mem)]
    · have other : y ≠ x := by
        rintro rfl
        exact mem (absent rfl)
      rw [nameless_var_append_of_not_mem mem, nameless_var_append_of_not_mem mem,
        nameless_var_cons_of_ne other]
      by_cases bound : y ∈ outer
      · rw [nameless_var_of_mem bound]
        simp [Nameless.shift, Nameless.instantiate]
      · rw [nameless_var_of_not_mem bound]
        rfl
  | lam y b ih =>
    have body := ih (y :: inner) (by
      intro free
      by_cases same : x = y
      · rw [same]
        exact List.mem_cons_self
      · exact List.mem_cons_of_mem y (absent ⟨same, free⟩))
    rw [nameless, nameless, Nameless.instantiate]
    exact congrArg Nameless.lam body
  | app f a ihf iha =>
    rw [nameless, nameless, Nameless.instantiate, ihf inner fun free => absent (Or.inl free),
      iha inner fun free => absent (Or.inr free)]

/-- A parameter may be renamed to a name that occurs nowhere. -/
theorem nameless_replace_var {t : Term} {y new : Name} (inner outer : List Name)
    (fresh : new ∉ t.names) (hy : y ∉ inner) (hnew : new ∉ inner) :
    (t.replace y (var new)).nameless (inner ++ new :: outer) =
      t.nameless (inner ++ y :: outer) := by
  induction t generalizing inner with
  | var z =>
    rw [replace]
    split
    · next same =>
      subst same
      rw [nameless_var_append_of_not_mem hnew, nameless_var_append_of_not_mem hy,
        nameless_var_cons_self, nameless_var_cons_self]
    · next other =>
      have notNew : z ≠ new := fun same => fresh (same ▸ List.mem_cons_self)
      exact nameless_var_skip notNew other
  | lam z b ih =>
    rw [replace]
    split
    · next same =>
      subst same
      apply nameless_congr
      intro x free
      have notNew : x ≠ new := fun same => fresh (same ▸ names_of_free free)
      exact nameless_var_skip notNew free.1
    · next other =>
      have notNew : new ≠ z := fun same => fresh (same ▸ List.mem_cons_self)
      have body := ih (z :: inner) (fun mem => fresh (List.mem_cons_of_mem z mem))
        (by simp [hy, Ne.symm other]) (by simp [hnew, notNew])
      rw [nameless, nameless]
      exact congrArg Nameless.lam body
  | app f a ihf iha =>
    rw [replace, nameless, nameless,
      ihf inner (fun mem => fresh (List.mem_append_left _ mem)) hy hnew,
      iha inner (fun mem => fresh (List.mem_append_right _ mem)) hy hnew]

end Term

end EagerLambda
