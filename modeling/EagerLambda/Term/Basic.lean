import EagerLambda.Name

/-!
# Terms

The untyped lambda calculus with named binders. Two terms are equal only if
they are spelled alike: `% x . x` and `% y . y` are different terms.
-/

namespace EagerLambda

/-- A term of the untyped lambda calculus. -/
inductive Term where
  | var (x : Name)
  | lam (x : Name) (body : Term)
  /-- The application of `f` to `a`. -/
  | app (f a : Term)
  deriving DecidableEq, Repr, Inhabited

namespace Term

/-- The number of variables, functions and applications in a term. -/
def size : Term → Nat
  | var _ => 1
  | lam _ b => b.size + 1
  | app f a => f.size + a.size + 1

/-- Every name of a term, as a variable or as a parameter, in reading order. -/
def names : Term → List Name
  | var x => [x]
  | lam x b => x :: b.names
  | app f a => f.names ++ a.names

end Term

end EagerLambda
