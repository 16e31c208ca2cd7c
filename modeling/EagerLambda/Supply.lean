import EagerLambda.Name
import Std.Data.ExtTreeMap

/-!
# Fresh names

A supply makes new names from old ones by adding a number in decimal. It counts
for each base how many names it has made from it, so it never makes the same
name twice from the same base.
-/

namespace EagerLambda

/-- How many names have been made from each base. -/
structure Supply where
  counters : Std.ExtTreeMap Name Nat := ∅

namespace Supply

def empty : Supply := {}

/-- The number of names made from a base so far. -/
def count (s : Supply) (base : Name) : Nat :=
  s.counters.getD base 0

def next (s : Supply) (base : Name) : Name :=
  base ++ (s.count base + 1).repr

/-- The supply after one more name was made from a base. -/
def advance (s : Supply) (base : Name) : Supply :=
  ⟨s.counters.insert base (s.count base + 1)⟩

@[simp] theorem count_empty (base : Name) : empty.count base = 0 := by
  simp [empty, count]

theorem count_advance (s : Supply) (base other : Name) :
    (s.advance base).count other = if base = other then s.count base + 1 else s.count other := by
  simp [advance, count, Std.ExtTreeMap.getD_insert]

end Supply

end EagerLambda
