import EagerLambda.Term.Basic

/-!
# The text of a term

A variable is written as its name, a function as `% x . body` and an
application as `<f + a>`.
-/

namespace EagerLambda.Term

/-- The text of a term, written in front of `rest`. -/
def write : Term → List Char → List Char
  | var x, rest => x.toList ++ rest
  | lam x b, rest => '%' :: ' ' :: (x.toList ++ ' ' :: '.' :: ' ' :: b.write rest)
  | app f a, rest => '<' :: f.write (' ' :: '+' :: ' ' :: a.write ('>' :: rest))

def render (t : Term) : String :=
  String.ofList (t.write [])

theorem write_eq_append (t : Term) (rest : List Char) : t.write rest = t.write [] ++ rest := by
  induction t generalizing rest with
  | var x => simp [write]
  | lam x b ih => simp only [write]; rw [ih rest]; simp
  | app f a hf ha =>
    simp only [write]
    rw [hf, hf (' ' :: _), ha, ha ('>' :: [])]
    simp

end EagerLambda.Term
