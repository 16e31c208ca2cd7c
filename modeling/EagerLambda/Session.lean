import EagerLambda.Evaluation
import EagerLambda.Statement

/-!
# Sessions

A session keeps the bindings made so far and the supply of fresh names that its
evaluations share. A line that cannot be read changes nothing; an evaluation
changes the supply only, also when it is given up.
-/

namespace EagerLambda

def ParseError.events : ParseError → Array Event
  | noTerm => #[]
  | unconsumed stop length => #[.inputLeft stop length]

structure Session where
  bindings : Bindings := ∅
  supply : Supply := .empty
  limits : Limits := {}

/-- What a session answers: a result, the session from then on, and the events
on the way. -/
structure Reply (α : Type) where
  result : α
  session : Session
  events : Array Event

inductive Execution where
  | bound (x : Name)
  | evaluated (outcome : Outcome)
  deriving DecidableEq, Repr

inductive LineOutcome where
  | skipped
  | bound (x : Name)
  | evaluated (t : Term)
  /-- The line contains `=` and is not a statement. -/
  | unreadableBinding
  /-- The line contains no `=` and is not a statement. -/
  | unreadable
  | abandoned (e : LimitExceeded)
  /-- The line asks for an evaluation that takes longer than it was followed. -/
  | unfinished
  deriving DecidableEq, Repr

def LineOutcome.message : LineOutcome → Option String
  | skipped => none
  | bound x => some ("[funck] Bound: " ++ x)
  | evaluated t => some ("| " ++ t.render ++ " |")
  | unreadableBinding => some "[funck] Parse error in binding."
  | unreadable => some "[funck] Parse error."
  | abandoned e => some ("[funck] " ++ e.message)
  | unfinished => none

namespace Session

/-- The term bound to a name, as it was written. -/
def binding? (s : Session) (x : Name) : Option Term :=
  s.bindings[x]?

/-- The bound names in the order of their characters. -/
def boundNames (s : Session) : List Name :=
  s.bindings.keys

/-- Binds a name to a term that is not evaluated, in place of what it was bound
to before. -/
def define (s : Session) (x : Name) (t : Term) : Reply Unit :=
  { result := ()
    session := { s with bindings := s.bindings.insert x t }
    events := #[.bound x] }

def evaluate (s : Session) (t : Term) : Reply Outcome :=
  let r := EagerLambda.evaluate s.bindings s.limits t { supply := s.supply }
  { result := r.1
    session := { s with supply := r.2.supply }
    events := r.2.log }

def execute (s : Session) : Statement → Reply Execution
  | .define x t =>
    let r := s.define x t
    { r with result := .bound x }
  | .eval t =>
    let r := s.evaluate t
    { r with result := .evaluated r.result }

def enter (s : Session) (line : String) : Reply LineOutcome :=
  if line = "" then { result := .skipped, session := s, events := #[] }
  else
    match Statement.parse line with
    | .error e =>
      { result := if '=' ∈ line.toList then .unreadableBinding else .unreadable
        session := s
        events := e.events.push (.unreadable line) }
    | .ok statement =>
      let r := s.execute statement
      match r.result with
      | .bound x => { r with result := .bound x }
      | .evaluated (.value t) => { r with result := .evaluated t }
      | .evaluated (.exceeded e) =>
        { r with result := .abandoned e, events := r.events.push (.abandoned e) }
      | .evaluated .unfinished => { r with result := .unfinished }

end Session

end EagerLambda
