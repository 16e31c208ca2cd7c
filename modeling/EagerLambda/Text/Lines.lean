/-!
# Lines of bytes

A line ends with a line feed, and one carriage return before it is dropped. A
last line without a line feed counts if it has any bytes, and keeps its carriage
return. Each line is decoded from UTF-8 on its own.

The bytes can be handed over one at a time, as they come in.
-/

namespace EagerLambda

/-- The lines found in the bytes so far. -/
structure LineSplitter where
  lines : Array (List UInt8) := #[]
  /-- The bytes since the end of the last line, the latest first. -/
  pending : List UInt8 := []

namespace LineSplitter

/-- Drops a carriage return that was the latest byte. -/
def dropReturn : List UInt8 → List UInt8
  | [] => []
  | b :: bs => if b = 13 then bs else b :: bs

def push (s : LineSplitter) (b : UInt8) : LineSplitter :=
  if b = 10 then { lines := s.lines.push (dropReturn s.pending).reverse, pending := [] }
  else { s with pending := b :: s.pending }

/-- All lines, when no more bytes come. -/
def finish (s : LineSplitter) : Array (List UInt8) :=
  if s.pending = [] then s.lines else s.lines.push s.pending.reverse

end LineSplitter

def splitLines (bytes : List UInt8) : List (List UInt8) :=
  (bytes.foldl LineSplitter.push {}).finish.toList

/-- The text that bytes stand for in UTF-8, or `none` if they stand for none. -/
def decodeUtf8? (bytes : List UInt8) : Option String :=
  String.fromUTF8? ⟨bytes.toArray⟩

end EagerLambda
