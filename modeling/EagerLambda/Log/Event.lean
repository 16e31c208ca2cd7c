import EagerLambda.Name
import EagerLambda.StepLimit

/-!
# Events

What a run reports about itself as it goes. Every event has a level, and a
threshold keeps the events that are at least as severe.
-/

namespace EagerLambda

/-- How severe an event is, the most severe first. -/
inductive Level where
  | error
  | warn
  | info
  | debug
  | trace
  deriving DecidableEq, Repr

namespace Level

/-- The place of a level, counted from the most severe. -/
def rank : Level → Nat
  | error => 0
  | warn => 1
  | info => 2
  | debug => 3
  | trace => 4

def label : Level → String
  | error => "ERROR"
  | warn => "WARN"
  | info => "INFO"
  | debug => "DEBUG"
  | trace => "TRACE"

end Level

/-- The least severe level that is logged; `none` logs nothing. -/
abbrev Threshold := Option Level

def Threshold.ofName? : String → Option Threshold
  | "off" => some none
  | "error" => some (some .error)
  | "warn" => some (some .warn)
  | "info" => some (some .info)
  | "debug" => some (some .debug)
  | "trace" => some (some .trace)
  | _ => none

def Threshold.admits : Threshold → Level → Bool
  | none, _ => false
  | some least, level => level.rank ≤ least.rank

inductive Event where
  /-- A term was read up to byte `stop` of a text of `length` bytes, and the
  rest of the text was not part of it. -/
  | inputLeft (stop length : Nat)
  | minted (base new : Name)
  /-- The parameter of a function was renamed so that it captures nothing. -/
  | renamed (old new : Name)
  | expanded (x : Name)
  /-- A function was applied, as the given step of its evaluation. -/
  | reduced (param : Name) (step : Nat)
  | finished (steps : Nat)
  | bound (x : Name)
  | unreadable (line : String)
  | abandoned (cause : LimitExceeded)
  deriving DecidableEq, Repr

inductive FieldValue where
  /-- Text that a log line shows in quotes. -/
  | text (s : String)
  /-- Text that a log line shows as it is. -/
  | plain (s : String)
  | count (n : Nat)
  deriving DecidableEq, Repr

namespace Event

def level : Event → Level
  | inputLeft .. | minted .. | renamed .. => .trace
  | expanded .. | reduced .. | finished .. | unreadable .. => .debug
  | bound .. => .info
  | abandoned .. => .warn

def message : Event → String
  | inputLeft .. => "input left unconsumed"
  | minted .. => "minted fresh name"
  | renamed .. => "alpha converting to avoid capture"
  | expanded .. => "expanding binding"
  | reduced .. => "beta reduction"
  | finished .. => "evaluation finished"
  | bound .. => "binding created"
  | unreadable .. => "line failed to parse"
  | abandoned .. => "evaluation abandoned"

/-- The particulars of an event, in the order in which they are shown. -/
def fields : Event → List (String × FieldValue)
  | inputLeft stop length => [("end_idx", .count stop), ("input_len", .count length)]
  | minted base new => [("base_name", .text base), ("new_name", .text new)]
  | renamed old new => [("old_param", .text old), ("new_param", .text new)]
  | expanded x => [("var_name", .text x)]
  | reduced param step => [("formal_param", .text param), ("step", .count step)]
  | finished steps => [("steps", .count steps)]
  | bound x => [("def_name", .text x)]
  | unreadable line => [("line", .text line)]
  | abandoned cause => [("eval_error", .plain cause.message)]

/-- Whether an event counts one step of an evaluation. -/
def isStep : Event → Bool
  | expanded .. | reduced .. => true
  | _ => false

end Event

def Threshold.keep (threshold : Threshold) (events : List Event) : List Event :=
  events.filter fun e => threshold.admits e.level

end EagerLambda
