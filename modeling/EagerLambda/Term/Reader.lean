import EagerLambda.Term.Basic
import EagerLambda.Text.Position

/-!
# Reading terms

A term is a function `%x.body`, an application `<f + a>` or a variable, and
blanks may stand before every token but not after the last. The first character
that is not a blank decides which of the three is read.
-/

namespace EagerLambda

inductive ParseError where
  /-- No term stands at the front of the text. -/
  | noTerm
  /-- A term stands there, and ends at byte `stop` of a text of `length`
  bytes. -/
  | unconsumed (stop length : Nat)
  deriving DecidableEq, Repr

namespace Term

/-- Reads the term at the front of `s`. -/
def read (s : List Char) : Option (Taken Term s) :=
  match peek s with
  | some '%' => do
    let ⟨_, r₁, h₁⟩ ← TokenClass.lambda.token? s
    let ⟨x, r₂, h₂⟩ ← TokenClass.identifier.token? r₁
    let ⟨_, r₃, h₃⟩ ← TokenClass.dot.token? r₂
    let ⟨b, r₄, h₄⟩ ← read r₃
    some ⟨lam (String.ofList x) b, r₄, Nat.lt_trans h₄ (Nat.lt_trans h₃ (Nat.lt_trans h₂ h₁))⟩
  | some '<' => do
    let ⟨_, r₁, h₁⟩ ← TokenClass.openApp.token? s
    let ⟨f, r₂, h₂⟩ ← read r₁
    let ⟨_, r₃, h₃⟩ ← TokenClass.plus.token? r₂
    let ⟨a, r₄, h₄⟩ ← read r₃
    let ⟨_, r₅, h₅⟩ ← TokenClass.closeApp.token? r₄
    some ⟨app f a, r₅,
      Nat.lt_trans h₅ (Nat.lt_trans h₄ (Nat.lt_trans h₃ (Nat.lt_trans h₂ h₁)))⟩
  | _ => do
    let ⟨x, r, h⟩ ← TokenClass.identifier.token? s
    some ⟨var (String.ofList x), r, h⟩
termination_by s.length
decreasing_by
  · exact Nat.lt_trans h₃ (Nat.lt_trans h₂ h₁)
  · exact h₁
  · exact Nat.lt_trans h₃ (Nat.lt_trans h₂ h₁)

/-- Reads the term after byte position `i` of a text. Gives the term and the
position just past it. -/
def readAt (s : List Char) (i : Nat) : Except InsideCharacter (Option (Term × Nat)) :=
  (seek s i).map fun r => (read r).map fun t => (t.value, positionOf s t.rest)

/-- Reads the whole of `s` as one term. -/
def parseChars (s : List Char) : Except ParseError Term :=
  match read s with
  | none => .error .noTerm
  | some ⟨t, [], _⟩ => .ok t
  | some ⟨_, r, _⟩ => .error (.unconsumed (positionOf s r) (byteLength s))

def parse (text : String) : Except ParseError Term :=
  parseChars text.toList

end Term

end EagerLambda
