import EagerLambda.Text.Position

/-!
# Scanning with a cursor

`scan` answers a list of questions about a text at a cursor. The cursor moves
to the end of every token that is found, and stays where it is otherwise.
-/

namespace EagerLambda

inductive Question where
  /-- Where do the blanks end? -/
  | skip
  /-- Which character comes after the blanks? -/
  | peek
  /-- Is the next token of this class? -/
  | token (k : TokenClass)
  deriving DecidableEq, Repr

inductive Answer where
  | position (i : Nat)
  | character (c : Option Char)
  | token (text : List Char) (stop : Nat)
  | noToken
  | refused
  deriving DecidableEq, Repr

/-- Answers one question at the cursor `i`, and gives the cursor for the next
one: just past a token that was found, and otherwise where it was. -/
def ask (s : List Char) (i : Nat) : Question → Answer × Nat
  | .skip =>
    match skipBlanksAt s i with
    | .error _ => (.refused, i)
    | .ok j => (.position j, i)
  | .peek =>
    match peekAt s i with
    | .error _ => (.refused, i)
    | .ok c => (.character c, i)
  | .token k =>
    match tokenAt s i k with
    | .error _ => (.refused, i)
    | .ok none => (.noToken, i)
    | .ok (some (text, j)) => (.token text j, j)

/-- Answers the questions in turn, the cursor starting at `i`. -/
def scan (s : List Char) (i : Nat) : List Question → List Answer
  | [] => []
  | q :: qs => (ask s i q).1 :: scan s (ask s i q).2 qs

end EagerLambda
