/-!
# Tokens

A lexeme of a token class is one character that may start it, followed by the
longest run of characters that may continue it. Blanks may stand before any
token and are never part of one.
-/

namespace EagerLambda

/-- Space, tab, carriage return and line feed, and no other character. -/
def isBlank (c : Char) : Bool :=
  c == ' ' || c == '\t' || c == '\r' || c == '\n'

/-- What is left of a text after its leading blanks. -/
def skipBlanks (s : List Char) : List Char :=
  s.dropWhile isBlank

theorem length_skipBlanks_le (s : List Char) : (skipBlanks s).length ≤ s.length :=
  (List.dropWhile_sublist isBlank).length_le

/-- The first character that is not a blank. -/
def peek (s : List Char) : Option Char :=
  (skipBlanks s).head?

inductive TokenClass where
  | identifier
  | lambda
  | dot
  | openApp
  | plus
  | closeApp
  | blanks
  deriving DecidableEq, Repr

/-- A value read off the front of `s`, with the part of `s` that comes after
it. Something is always read. -/
structure Taken (α : Type) (s : List Char) where
  value : α
  rest : List Char
  shorter : rest.length < s.length

/-- What is taken from the end of a text is taken from the text. -/
def Taken.widen {α : Type} {r s : List Char} (t : Taken α r) (h : r.length ≤ s.length) :
    Taken α s :=
  ⟨t.value, t.rest, Nat.lt_of_lt_of_le t.shorter h⟩

namespace TokenClass

/-- The characters that a lexeme of the class can start with. Letters and
digits are those of ASCII. -/
def starts : TokenClass → Char → Bool
  | identifier, c => c.isAlpha || c == '_'
  | lambda, c => c == '%'
  | dot, c => c == '.'
  | openApp, c => c == '<'
  | plus, c => c == '+'
  | closeApp, c => c == '>'
  | blanks, c => isBlank c

/-- The characters that can follow the first one of a lexeme. -/
def continues : TokenClass → Char → Bool
  | identifier, c => c.isAlphanum || c == '_'
  | blanks, c => isBlank c
  | _, _ => false

/-- Whether the whole text is one lexeme of the class. -/
def accepts (k : TokenClass) : List Char → Bool
  | [] => false
  | c :: s => k.starts c && s.all k.continues

/-- The longest lexeme of the class that `s` starts with. -/
def lexeme? (k : TokenClass) : (s : List Char) → Option (Taken (List Char) s)
  | [] => none
  | c :: s =>
    if k.starts c then
      some ⟨c :: s.takeWhile k.continues, s.dropWhile k.continues,
        Nat.lt_succ_of_le (List.dropWhile_sublist k.continues).length_le⟩
    else none

/-- The next token of `s`, if it is of the class: blanks are skipped, then the
longest lexeme is taken. Since no blank is left to take, `blanks` finds
nothing. -/
def token? (k : TokenClass) (s : List Char) : Option (Taken (List Char) s) :=
  (k.lexeme? (skipBlanks s)).map (·.widen (length_skipBlanks_le s))

end TokenClass

end EagerLambda
