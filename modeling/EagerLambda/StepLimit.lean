/-!
# Step limits

An evaluation may be given a number of steps that it must not exceed. Only
expanding a bound name and applying a function count as steps.

An evaluation without a limit may go on for ever. It is followed for as long as
the caller has patience, which is a number of steps too; nothing is reported of
an evaluation that takes longer.
-/

namespace EagerLambda

structure Limits where
  /-- The steps after which an evaluation is given up, if there is a limit. -/
  maxSteps : Option Nat := none
  /-- The steps for which an evaluation without a limit is followed. The default
  is more than a machine can take. -/
  patience : Nat := 0x4000000000000000
  deriving DecidableEq, Repr

/-- The steps for which an evaluation is run at most. -/
def Limits.budget (l : Limits) : Nat :=
  l.maxSteps.getD l.patience

/-- An evaluation was given up because it needed more than `maxSteps` steps. -/
structure LimitExceeded where
  maxSteps : Nat
  deriving DecidableEq, Repr

def LimitExceeded.message (e : LimitExceeded) : String :=
  "Step limit exceeded (" ++ e.maxSteps.repr ++ " steps)."

end EagerLambda
