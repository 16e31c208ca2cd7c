import EagerLambda.Text.Unprintable

/-!
# Quoted text

A text in double quotes, in which everything is visible. Quotes, backslashes
and the common controls have short escapes, and every other unprintable
character is written as its code point in hexadecimal.
-/

namespace EagerLambda

/-- How a character is written between double quotes. -/
def escape (c : Char) : List Char :=
  if c = '\x00' then ['\\', '0']
  else if c = '\t' then ['\\', 't']
  else if c = '\r' then ['\\', 'r']
  else if c = '\n' then ['\\', 'n']
  else if c = '"' then ['\\', '"']
  else if c = '\\' then ['\\', '\\']
  else if isUnprintable c then
    '\\' :: 'u' :: '\x7b' :: Nat.toDigits 16 c.toNat ++ ['\x7d']
  else [c]

def quote (s : String) : String :=
  String.ofList ('"' :: s.toList.flatMap escape ++ ['"'])

end EagerLambda
