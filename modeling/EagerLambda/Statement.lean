import EagerLambda.Term.Printer
import EagerLambda.Term.Reader

/-!
# Statements

A line that contains `=` binds a name: the name is the text before the first
`=`, with the blanks at its end removed and nothing else asked of it, and the
rest of the line is the term. Any other line is a term to be evaluated.
-/

namespace EagerLambda

inductive Statement where
  | define (x : Name) (body : Term)
  | eval (t : Term)
  deriving DecidableEq, Repr

/-- A text without the blanks at its end. -/
def trimEnd (s : List Char) : List Char :=
  (s.reverse.dropWhile isBlank).reverse

namespace Statement

def parseChars (s : List Char) : Except ParseError Statement :=
  match s.dropWhile (· != '=') with
  | [] => (Term.parseChars s).map eval
  | _ :: body =>
    (Term.parseChars body).map (define (String.ofList (trimEnd (s.takeWhile (· != '=')))))

def parse (line : String) : Except ParseError Statement :=
  parseChars line.toList

def render : Statement → String
  | define x body => x ++ " = " ++ body.render
  | eval t => t.render

end Statement

end EagerLambda
