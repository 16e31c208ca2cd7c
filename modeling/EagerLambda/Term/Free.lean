import EagerLambda.Term.Basic

/-!
# Free names

`Term.Free` says which names are free in a term. `Term.freeNames` lists them in
one walk over the term that keeps a single list of the names bound on the way
down; a binder of a name that is bound already leaves that list as it is.
-/

namespace EagerLambda.Term

/-- The name `x` occurs in the term outside every function of parameter `x`. -/
def Free (x : Name) : Term → Prop
  | var y => x = y
  | lam y b => x ≠ y ∧ b.Free x
  | app f a => f.Free x ∨ a.Free x

instance decidableFree (x : Name) : (t : Term) → Decidable (t.Free x)
  | var y => inferInstanceAs (Decidable (x = y))
  | lam y b =>
    have := decidableFree x b
    inferInstanceAs (Decidable (x ≠ y ∧ b.Free x))
  | app f a =>
    have := decidableFree x f
    have := decidableFree x a
    inferInstanceAs (Decidable (f.Free x ∨ a.Free x))

/-- How often the name `x` occurs free in a term. -/
def freeCount (x : Name) : Term → Nat
  | var y => if x = y then 1 else 0
  | lam y b => if x = y then 0 else b.freeCount x
  | app f a => f.freeCount x + a.freeCount x

/-- The state of a walk that collects free names. -/
structure FreeScan where
  /-- The names bound around the place where the walk is. -/
  bound : List Name := []
  free : List Name := []

/-- Walks over a term. A name that the walk binds is unbound again on the way
out, unless it was bound before. -/
def FreeScan.walk (s : FreeScan) : Term → FreeScan
  | var x => if x ∈ s.bound then s else { s with free := s.free.insert x }
  | lam x b =>
    if x ∈ s.bound then s.walk b
    else
      let s' := FreeScan.walk { s with bound := x :: s.bound } b
      { s' with bound := s'.bound.erase x }
  | app f a => (s.walk f).walk a

theorem FreeScan.bound_walk (s : FreeScan) (t : Term) : (s.walk t).bound = s.bound := by
  induction t generalizing s with
  | var x => unfold walk; split <;> rfl
  | lam x b ih =>
    unfold walk
    split
    · exact ih s
    · simp [ih]
  | app f a hf ha => rw [walk, ha, hf]

/-- A walk adds the free names that were not bound around the term. -/
theorem FreeScan.mem_free_walk (s : FreeScan) (t : Term) (x : Name) :
    x ∈ (s.walk t).free ↔ x ∈ s.free ∨ t.Free x ∧ x ∉ s.bound := by
  induction t generalizing s with
  | var y =>
    unfold walk
    split
    · simp only [Free]; grind
    · simp only [Free, List.mem_insert_iff]; grind
  | lam y b ih =>
    unfold walk
    split
    · simp only [ih, Free]; grind
    · simp only [ih, Free, List.mem_cons]; grind
  | app f a hf ha =>
    simp only [walk, ha, hf, bound_walk, Free]
    grind

/-- The free names of a term, each once. -/
def freeNames (t : Term) : List Name :=
  (FreeScan.walk {} t).free

theorem mem_freeNames {t : Term} {x : Name} : x ∈ t.freeNames ↔ t.Free x := by
  simp [freeNames, FreeScan.mem_free_walk]

end EagerLambda.Term
