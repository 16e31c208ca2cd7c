import EagerLambda.Term.Free
import EagerLambda.Workspace

/-!
# Substitution

`t.substitute x v w` puts `v` for every free `x` in `t`. A function whose
parameter is free in `v` would capture it: its parameter is renamed to a fresh
name first, which is a substitution of its own, and then the substitution is
tried again on the renamed function. A fresh name may itself be free in `v`, so
this can happen more than once at one function.

It ends because renaming keeps the size of a body, and because a fresh name is
longer than its base: each try at one function leaves fewer free names of `v`
that are as long as its parameter.
-/

namespace EagerLambda

theorem Supply.length_lt_length_next (s : Supply) (base : Name) :
    base.length < (s.next base).length := by
  have : 0 < (s.count base + 1).repr.length := Nat.length_repr_pos
  simp [Supply.next]
  omega

theorem Workspace.length_lt_length_mint (w : Workspace) (base : Name) :
    base.length < (w.mint base).1.length :=
  w.supply.length_lt_length_next base

namespace Term

/-- The names among `names` that are at least as long as the parameter of a
function: no more renamings than these can follow each other there. -/
def rivals (names : List Name) : Term → Nat
  | lam x _ => names.countP fun y => x.length ≤ y.length
  | _ => 0

theorem rivals_le (names : List Name) (t : Term) : t.rivals names ≤ names.length := by
  cases t <;> simp [rivals, List.countP_le_length]

theorem rivals_lt {names : List Name} {x y : Name} (b c : Term) (hx : x ∈ names)
    (hxy : x.length < y.length) : (lam y c).rivals names < (lam x b).rivals names := by
  simp only [rivals]
  have le (l : List Name) : l.countP (fun z => y.length ≤ z.length) ≤
      l.countP (fun z => x.length ≤ z.length) :=
    List.countP_mono_left fun z _ hz => by simp only [decide_eq_true_eq] at hz ⊢; omega
  obtain ⟨l, r, rfl⟩ := List.append_of_mem hx
  have hl := le l
  have hr := le r
  simp [Nat.not_le.mpr hxy]
  omega

/-- What gets smaller with every call of a substitution of a term whose free
names are `names`. -/
def weight (names : List Name) (t : Term) : Nat :=
  t.size * (names.length + 1) + t.rivals names

theorem weight_lt {names : List Name} {s t : Term} (h : s.size < t.size) :
    s.weight names < t.weight names := by
  have := Nat.mul_le_mul_right (names.length + 1) h
  have := rivals_le names s
  rw [Nat.succ_mul] at *
  simp only [weight]
  omega

theorem weight_rename_lt {names : List Name} {y z : Name} {b : Term} (hy : y ∈ names) :
    b.weight (var z).freeNames < (lam y b).weight names := by
  have : 1 ≤ names.length := List.length_pos_of_mem hy
  have : (b.size + 1) * 2 ≤ (b.size + 1) * (names.length + 1) := Nat.mul_le_mul_left _ (by omega)
  have := rivals_le (var z).freeNames b
  have : (var z).freeNames.length = 1 := rfl
  simp only [weight, size, *]
  omega

theorem weight_retry_lt {names : List Name} {y z : Name} {b c : Term} (hc : c.size = b.size)
    (hy : y ∈ names) (hz : y.length < z.length) :
    (lam z c).weight names < (lam y b).weight names := by
  simp only [weight, size, hc]
  exact Nat.add_lt_add_left (rivals_lt b c hy hz) _

/-- `substitute` with the free names of `v` at hand. If `v` is a variable then
the size of the term is kept, which is what lets the renamed function be tried
again. -/
def substituteWith (x : Name) (v : Term) (free : List Name) (t : Term) (w : Workspace) :
    { r : Term × Workspace // (∃ z, v = var z) → r.1.size = t.size } :=
  match t with
  | var y =>
    if y = x then ⟨(v, w), by rintro ⟨z, rfl⟩; rfl⟩ else ⟨(var y, w), fun _ => rfl⟩
  | app f a =>
    match substituteWith x v free f w with
    | ⟨(f', w₁), hf⟩ =>
      match substituteWith x v free a w₁ with
      | ⟨(a', w₂), ha⟩ => ⟨(app f' a', w₂), fun h => by simp only [size, hf h, ha h]⟩
  | lam y b =>
    if y = x then ⟨(lam y b, w), fun _ => rfl⟩
    else if hy : y ∈ free then
      match w.mint y, w.length_lt_length_mint y with
      | (y', w₁), hlen =>
        match substituteWith y (var y') (var y').freeNames b (w₁.record (.renamed y y')) with
        | ⟨(b', w₂), hb⟩ =>
          have hb : b'.size = b.size := hb ⟨y', rfl⟩
          match substituteWith x v free (lam y' b') w₂ with
          | ⟨r, hr⟩ => ⟨r, fun h => by rw [hr h, size, size, hb]⟩
    else
      match substituteWith x v free b w with
      | ⟨(b', w₁), hb⟩ => ⟨(lam y b', w₁), fun h => by simp only [size, hb h]⟩
termination_by t.weight free
decreasing_by
  · exact weight_lt (by simp only [size]; omega)
  · exact weight_lt (by simp only [size]; omega)
  · exact weight_rename_lt hy
  · exact weight_retry_lt hb hy hlen
  · exact weight_lt (by simp only [size]; omega)

/-- Puts `v` for every free `x` in `t`, renaming parameters that would capture a
free name of `v`. -/
def substitute (t : Term) (x : Name) (v : Term) (w : Workspace) : Term × Workspace :=
  (substituteWith x v v.freeNames t w).val

theorem size_substitute_var (t : Term) (x z : Name) (w : Workspace) :
    (t.substitute x (var z) w).1.size = t.size :=
  (substituteWith x (var z) (var z).freeNames t w).property ⟨z, rfl⟩

/-! ### The four cases of a substitution -/

theorem substitute_var (y x : Name) (v : Term) (w : Workspace) :
    (var y).substitute x v w = (if y = x then v else var y, w) := by
  simp only [substitute, substituteWith]
  split <;> rfl

theorem substitute_app (f a : Term) (x : Name) (v : Term) (w : Workspace) :
    (app f a).substitute x v w =
      (app (f.substitute x v w).1 (a.substitute x v (f.substitute x v w).2).1,
        (a.substitute x v (f.substitute x v w).2).2) := by
  simp only [substitute]
  rw [substituteWith]

/-- A function of parameter `x` has no free `x`. -/
theorem substitute_lam_self (x : Name) (b v : Term) (w : Workspace) :
    (lam x b).substitute x v w = (lam x b, w) := by
  simp only [substitute]
  rw [substituteWith, if_pos rfl]

theorem substitute_lam_of_not_mem {y x : Name} {v : Term} (hx : y ≠ x) (hv : y ∉ v.freeNames)
    (b : Term) (w : Workspace) :
    (lam y b).substitute x v w = (lam y (b.substitute x v w).1, (b.substitute x v w).2) := by
  simp only [substitute]
  rw [substituteWith, if_neg hx, dif_neg hv]

/-- A function whose parameter is free in `v` is renamed and tried again. -/
theorem substitute_lam_of_mem {y x : Name} {v : Term} (hx : y ≠ x) (hv : y ∈ v.freeNames)
    (b : Term) (w : Workspace) :
    (lam y b).substitute x v w =
      let new := (w.mint y).1
      let renamed := b.substitute y (var new) ((w.mint y).2.record (.renamed y new))
      (lam new renamed.1).substitute x v renamed.2 := by
  simp only [substitute]
  rw [substituteWith, if_neg hx, dif_pos hv]

theorem substitute_induction {motive : Term → Name → Term → Workspace → Prop}
    (var : ∀ y x v w, motive (var y) x v w)
    (app : ∀ f a x v w, motive f x v w → motive a x v (f.substitute x v w).2 →
      motive (app f a) x v w)
    (lam_self : ∀ x b v w, motive (lam x b) x v w)
    (lam_of_not_mem : ∀ y b x v w, y ≠ x → y ∉ v.freeNames → motive b x v w →
      motive (lam y b) x v w)
    (lam_of_mem : ∀ y b x v w, y ≠ x → y ∈ v.freeNames →
      let new := (w.mint y).1
      let start := (w.mint y).2.record (.renamed y new)
      let renamed := b.substitute y (.var new) start
      motive b y (.var new) start → motive (lam new renamed.1) x v renamed.2 →
      motive (lam y b) x v w)
    (t : Term) (x : Name) (v : Term) (w : Workspace) : motive t x v w := by
  induction hn : t.weight v.freeNames using Nat.strongRecOn generalizing t x v w with
  | _ n ih =>
    subst hn
    cases t with
    | var y => exact var y x v w
    | app f a =>
      exact app f a x v w
        (ih _ (weight_lt (by simp only [size]; omega)) f x v w rfl)
        (ih _ (weight_lt (by simp only [size]; omega)) a x v _ rfl)
    | lam y b =>
      by_cases hx : y = x
      · exact hx ▸ lam_self y b v w
      by_cases hv : y ∈ v.freeNames
      · refine lam_of_mem y b x v w hx hv
          (ih _ (weight_rename_lt hv) b y _ _ rfl)
          (ih _ (weight_retry_lt ?_ hv (w.length_lt_length_mint y)) _ x v _ rfl)
        exact size_substitute_var ..
      · exact lam_of_not_mem y b x v w hx hv
          (ih _ (weight_lt (by simp only [size]; omega)) b x v w rfl)

end Term

end EagerLambda
