/-!
# Command-line options

Arguments are read from left to right, and the first error or request for help
ends the reading. An option may have its value attached, as in `-m5`, `-m=5` or
`--max-steps=5`, or in the next argument. A value in an argument of its own is
looked at only when the next option comes, or at the end: an argument that is
not known at all is reported before a value that is wrong.
-/

namespace EagerLambda

structure Options where
  /-- The file to read lines from, in place of the console. -/
  script : Option String := none
  maxSteps : Option Nat := none
  verbose : Bool := false
  deriving DecidableEq, Repr

inductive UsageError where
  | unknownArgument
  | missingValue
  | invalidValue
  | repeated
  /-- A value is attached to an option that takes none. -/
  | unexpectedValue
  deriving DecidableEq, Repr

/-- Why the reading of a command line ends early. -/
inductive EarlyExit where
  | help
  | version
  | usage (e : UsageError)
  deriving DecidableEq, Repr

inductive Setting where
  | script
  | maxSteps
  deriving DecidableEq, Repr

inductive Flag where
  | verbose
  | help
  | version
  deriving DecidableEq, Repr

inductive OptionName where
  | setting (s : Setting)
  | flag (f : Flag)
  deriving DecidableEq, Repr

def OptionName.ofLong? (name : List Char) : Option OptionName :=
  match String.ofList name with
  | "src-filepath" => some (.setting .script)
  | "max-steps" => some (.setting .maxSteps)
  | "verbose" => some (.flag .verbose)
  | "help" => some (.flag .help)
  | "version" => some (.flag .version)
  | _ => none

def OptionName.ofShort? : Char → Option OptionName
  | 's' => some (.setting .script)
  | 'm' => some (.setting .maxSteps)
  | 'v' => some (.flag .verbose)
  | 'h' => some (.flag .help)
  | 'V' => some (.flag .version)
  | _ => none

/-- The number that ASCII digits stand for. -/
def ofDigits (digits : List Char) : Nat :=
  digits.foldl (fun n c => n * 10 + (c.toNat - '0'.toNat)) 0

/-- A number of steps: at least one digit, a plus sign allowed before, and no
more than fits into 64 bits. -/
def readCount? (value : List Char) : Option Nat :=
  let digits := match value with
    | '+' :: rest => rest
    | _ => value
  if digits ≠ [] ∧ digits.all Char.isDigit ∧ ofDigits digits < UInt64.size then some (ofDigits digits)
  else none

/-- How far the reading of a command line has got. -/
structure OptionReader where
  options : Options := {}
  /-- A setting that was named last, with its value once that has been read. -/
  pending : Option (Setting × Option (List Char)) := none
  /-- Whether `--` has been read: nothing after it is an option. -/
  closed : Bool := false
  deriving DecidableEq, Repr

namespace OptionReader

/-- Gives a setting its value, which may be set once only. -/
def set (r : OptionReader) (s : Setting) (value : List Char) : Except EarlyExit OptionReader :=
  match s with
  | .script =>
    if r.options.script.isSome then .error (.usage .repeated)
    else .ok { r with options := { r.options with script := some (String.ofList value) } }
  | .maxSteps =>
    if r.options.maxSteps.isSome then .error (.usage .repeated)
    else
      match readCount? value with
      | none => .error (.usage .invalidValue)
      | some n => .ok { r with options := { r.options with maxSteps := some n } }

/-- Gives the setting that was named last its value. -/
def settle (r : OptionReader) : Except EarlyExit OptionReader :=
  match r.pending with
  | none => .ok r
  | some (_, none) => .error (.usage .missingValue)
  | some (s, some value) => { r with pending := none }.set s value

/-- Reads a setting whose value may be attached. -/
def readSetting (r : OptionReader) (s : Setting) (attached : Option (List Char)) :
    Except EarlyExit OptionReader :=
  match attached with
  | none => r.settle.map fun r => { r with pending := some (s, none) }
  | some value => r.settle.bind fun r => r.set s value

def readFlag (r : OptionReader) (f : Flag) : Except EarlyExit OptionReader :=
  r.settle.bind fun r =>
    match f with
    | .help => .error .help
    | .version => .error .version
    | .verbose =>
      if r.options.verbose then .error (.usage .repeated)
      else .ok { r with options := { r.options with verbose := true } }

/-- Reads a long option, given without its dashes. -/
def readLong (r : OptionReader) (arg : List Char) : Except EarlyExit OptionReader :=
  let attached := (arg.dropWhile (· != '=')).tail?
  match OptionName.ofLong? (arg.takeWhile (· != '=')), attached with
  | none, _ => .error (.usage .unknownArgument)
  | some (.setting s), _ => r.readSetting s attached
  | some (.flag f), none => r.readFlag f
  | some (.flag _), some _ => .error (.usage .unexpectedValue)

/-- Reads one-letter options that stand together, given without their dash. The
first setting takes what is left as its value. -/
def readShort (r : OptionReader) : List Char → Except EarlyExit OptionReader
  | [] => .ok r
  | c :: rest =>
    match OptionName.ofShort? c with
    | none => .error (.usage .unknownArgument)
    | some (.flag f) => (r.readFlag f).bind fun r => r.readShort rest
    | some (.setting s) =>
      match rest with
      | [] => r.readSetting s none
      | '=' :: value => r.readSetting s (some value)
      | value => r.readSetting s (some value)

/-- Reads an argument that is not an option: the value of the setting before it,
if that still needs one. -/
def readWord (r : OptionReader) (arg : List Char) : Except EarlyExit OptionReader :=
  match r.pending with
  | some (s, none) => .ok { r with pending := some (s, some arg) }
  | _ => .error (.usage .unknownArgument)

def read (r : OptionReader) (arg : List Char) : Except EarlyExit OptionReader :=
  if r.closed then .error (.usage .unknownArgument)
  else
    match arg with
    | ['-', '-'] => .ok { r with closed := true }
    | '-' :: '-' :: long => r.readLong long
    | '-' :: c :: short => r.readShort (c :: short)
    | _ => r.readWord arg

end OptionReader

def Options.parse (args : List String) : Except EarlyExit Options :=
  (args.foldlM (fun r arg => OptionReader.read r arg.toList) {}).bind fun r =>
    r.settle.map (·.options)

end EagerLambda
