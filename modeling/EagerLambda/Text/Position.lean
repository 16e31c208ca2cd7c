import EagerLambda.Text.Token

/-!
# Byte positions

A position in a text counts the bytes of its UTF-8 form. A position inside a
character names no place in the text, and scanning there is refused; every
position at or past the end stands for the end.
-/

namespace EagerLambda

/-- The bytes that a text takes in UTF-8. -/
def byteLength (s : List Char) : Nat :=
  s.foldr (fun c n => c.utf8Size + n) 0

/-- A position lies inside a character. -/
structure InsideCharacter where
  deriving DecidableEq, Repr

/-- The text from a byte position on. -/
def seek : List Char → Nat → Except InsideCharacter (List Char)
  | s, 0 => .ok s
  | [], _ + 1 => .ok []
  | c :: s, i + 1 =>
    if c.utf8Size ≤ i + 1 then seek s (i + 1 - c.utf8Size) else .error ⟨⟩

/-- The position at which `r`, an end of `s`, starts. -/
def positionOf (s r : List Char) : Nat :=
  byteLength s - byteLength r

/-- The position of the first character at or after `i` that is not a blank. -/
def skipBlanksAt (s : List Char) (i : Nat) : Except InsideCharacter Nat :=
  (seek s i).map fun r => positionOf s (skipBlanks r)

def peekAt (s : List Char) (i : Nat) : Except InsideCharacter (Option Char) :=
  (seek s i).map peek

/-- The text of the token of class `k` after position `i`, and the position
just past it. -/
def tokenAt (s : List Char) (i : Nat) (k : TokenClass) :
    Except InsideCharacter (Option (List Char × Nat)) :=
  (seek s i).map fun r => (k.token? r).map fun t => (t.value, positionOf s t.rest)

end EagerLambda
