import EagerLambda.Program

/-!
# The executable

The program on the system at hand: its files, its terminal and its environment.
-/

namespace EagerLambda.Executable

/-- A fault by its number, with its description for those that have no name here. -/
def faultOfCode (code : UInt32) (details : String) : Fault :=
  if code = 2 then .notFound
  else if code = 20 then .notDirectory
  else if code = 21 then .isDirectory
  else if code = 36 then .nameTooLong
  else .other (details ++ " (os error " ++ toString code ++ ")")

def faultOf : IO.Error → Fault
  | .noFileOrDirectory _ code details | .inappropriateType _ code details
  | .invalidArgument _ code details | .permissionDenied _ code details
  | .noSuchThing _ code details | .resourceExhausted _ code details
  | .hardwareFault code details | .otherError code details => faultOfCode code details
  | e => .other e.toString

def readSource (path : String) : IO Source := do
  match ← (IO.FS.Handle.mk path .read).toBaseIO with
  | .error e => return .closed (faultOf e)
  | .ok file =>
    match ← file.readBinToEnd.toBaseIO with
    | .error e => return .unreadable (faultOf e)
    | .ok content => return .bytes content.toList

/-- Hands over what comes in on a stream, until it ends. A terminal is prompted each time. -/
partial def forChunks {β : Type} (stream : IO.FS.Stream) (b : β)
    (f : List UInt8 → β → IO (ForInStep β)) : IO β := do
  if ← stream.isTty then IO.print "> "
  (← IO.getStdout).flush
  let chunk ← stream.read 4096
  if chunk.isEmpty then return b
  match ← f chunk.toList b with
  | .done b => return b
  | .yield b => forChunks stream b f

instance forInStream : ForIn IO IO.FS.Stream (List UInt8) where
  forIn := forChunks

def usageMessage : UsageError → String
  | .unknownArgument => "error: unexpected argument"
  | .missingValue => "error: a value is required"
  | .invalidValue => "error: invalid value for '--max-steps <MAX_STEPS>'"
  | .repeated => "error: an option cannot be used multiple times"
  | .unexpectedValue => "error: unexpected value for an option that takes none"

/-- The environment variable that sets the level of the log. -/
def levelVariable : String := "RUST_LOG"

/-- The system that the executable runs on. -/
def system : System IO where
  wanted := return (← IO.getEnv levelVariable).bind Threshold.ofName?
  openFile := readSource
  print text := do
    IO.print text
    (← IO.getStdout).flush
  log line := IO.eprintln line
  refuse e := IO.eprintln (usageMessage e)

end EagerLambda.Executable

open EagerLambda.Executable in
def main (args : List String) : IO UInt32 := do
  let exit ← system.run args (← IO.getStdin)
  return exit.code.toUInt32
