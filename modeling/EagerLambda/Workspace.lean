import EagerLambda.Log.Event
import EagerLambda.Supply

/-!
# Workspaces

What substitution and evaluation carry along: the supply of fresh names and the
events so far, the oldest first.
-/

namespace EagerLambda

/-- A supply of fresh names with a log. -/
structure Workspace where
  supply : Supply := .empty
  log : Array Event := #[]

namespace Workspace

def record (w : Workspace) (e : Event) : Workspace :=
  { w with log := w.log.push e }

def mint (w : Workspace) (base : Name) : Name × Workspace :=
  (w.supply.next base,
    { supply := w.supply.advance base
      log := w.log.push (.minted base (w.supply.next base)) })

/-- Makes a fresh name from each base in turn. -/
def mintAll (w : Workspace) : List Name → List Name × Workspace
  | [] => ([], w)
  | base :: bases =>
    let r := (w.mint base).2.mintAll bases
    ((w.mint base).1 :: r.1, r.2)

end Workspace

end EagerLambda
