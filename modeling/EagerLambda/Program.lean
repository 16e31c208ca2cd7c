import EagerLambda.Files
import EagerLambda.Log.Line
import EagerLambda.Options
import EagerLambda.Transcript

/-!
# The command-line program

The program is written over the system that it runs on: where it opens files,
what it shows and logs, and how its console input comes in. On a system that
records what it is given, a run is a report: what the program shows, logs and
exits with, as a function of its arguments, files and standard input.
-/

namespace EagerLambda

inductive Exit where
  | success
  | failure (e : RunError)
  | usage (e : UsageError)
  /-- An evaluation takes longer than it was followed. -/
  | unfinished
  /-- The backspaces in a line could not be carried out. -/
  | aborted
  deriving DecidableEq, Repr

def Exit.code : Exit → Nat
  | success => 0
  | failure _ => 1
  | usage _ => 2
  | unfinished => 3
  | aborted => 101

def versionText : String := "funck 0.1.0\n"

def helpText : String :=
  String.join ([
    "Config for the interpreter. Instantiate via `InterpreterConfig::parse()`",
    "",
    "Usage: funck [OPTIONS]",
    "",
    "Options:",
    "  -s, --src-filepath <SRC_FILEPATH>  " ++
      "Read lines from this file instead of prompting for them",
    "  -m, --max-steps <MAX_STEPS>        " ++
      "Give up on an evaluation after this many reduction steps. " ++
      "Without it, a divergent term never returns",
    "  -v, --verbose                      Log every reduction step to stderr",
    "  -h, --help                         Print help",
    "  -V, --version                      Print version"].map (· ++ "\n"))

/-- The least severe level that is logged: what the surroundings ask for, or
else what the options ask for. -/
def Options.threshold (options : Options) (wanted : Option Threshold) : Threshold :=
  wanted.getD (some (if options.verbose then .debug else .warn))

/-- The session that the options ask for. -/
def Options.session (options : Options) : Session :=
  { limits := { maxSteps := options.maxSteps } }

/-- How the program ends when its lines do. -/
def Finish.exit : Finish → Exit
  | done => .success
  | failed e => .failure e
  | unfinished => .unfinished
  | aborted => .aborted

def Exit.complaint : Exit → List String
  | failure e => [e.message]
  | _ => []

/-- The lines of a file that can be opened. If it cannot be read, its first line cannot. -/
def Source.lines : Source → Except Fault (List (Except Fault String))
  | closed cause => .error cause
  | unreadable cause => .ok [.error cause]
  | bytes content => .ok (decodeLines content)

/-- What the program asks of the system that it runs on. -/
structure System (m : Type → Type) where
  /-- The threshold that the surroundings ask for. -/
  wanted : m (Option Threshold)
  openFile : String → m Source
  print : String → m Unit
  log : String → m Unit
  /-- Says why the arguments are refused. -/
  refuse : UsageError → m Unit

/-- A console between two chunks of its input. -/
structure Console where
  splitter : LineSplitter := {}
  transcript : Transcript
  finish : Finish := .done

namespace System

variable {m : Type → Type} [Monad m] (system : System m)

/-- Shows and logs what a transcript holds, and goes on with an empty one. -/
def flush (threshold : Threshold) (t : Transcript) : m Transcript := do
  (threshold.keep t.events.toList).forM fun e => system.log e.render
  system.print t.output
  return { session := t.session }

/-- Enters lines one by one, and shows the answer to each before the next. -/
def follow (enter : Transcript → List (Except Fault String) → Finish × Transcript)
    (threshold : Threshold) (t : Transcript) :
    List (Except Fault String) → m (Finish × Transcript)
  | [] => return (.done, t)
  | line :: lines => do
    let r := enter t [line]
    let t ← system.flush threshold r.2
    if r.1 = .done then follow enter threshold t lines else return (r.1, t)

/-- Enters the lines that a chunk of input completes. -/
def receive (threshold : Threshold) (c : Console) (chunk : List UInt8) : m Console := do
  let s := chunk.foldl LineSplitter.push c.splitter
  let r ← system.follow Transcript.enterPiped threshold c.transcript (s.lines.toList.map decodeLine)
  return { splitter := { s with lines := #[] }, transcript := r.2, finish := r.1 }

/-- Enters what comes in at the console, until it ends or a line ends the run. -/
def followConsole {ρ : Type} [ForIn m ρ (List UInt8)] (threshold : Threshold) (c : Console)
    (input : ρ) : m Finish := do
  let c ← forIn input c fun chunk c => do
    let c ← system.receive threshold c chunk
    return if c.finish = .done then .yield c else .done c
  if c.finish = .done then
    let rest := c.splitter.finish.toList.map decodeLine
    return (← system.follow Transcript.enterPiped threshold c.transcript rest).1
  else return c.finish

def leave (exit : Exit) : m Exit := do
  exit.complaint.forM system.log
  return exit

/-- Runs the lines of a file, or of the console if there is no file. -/
def runOptions {ρ : Type} [ForIn m ρ (List UInt8)] (options : Options) (threshold : Threshold)
    (input : ρ) : m Exit := do
  match options.script with
  | none =>
    let t ← system.flush threshold (Transcript.start options.session)
    let finish ← system.followConsole threshold { transcript := t } input
    system.leave finish.exit
  | some path =>
    match (← system.openFile path).lines with
    | .error cause => system.leave (.failure (.script cause))
    | .ok lines =>
      let t ← system.flush threshold (Transcript.start options.session)
      let r ← system.follow Transcript.enterScript threshold t lines
      system.leave r.1.exit

def run {ρ : Type} [ForIn m ρ (List UInt8)] (args : List String) (input : ρ) : m Exit := do
  match Options.parse args with
  | .error .help => system.print helpText; return .success
  | .error .version => system.print versionText; return .success
  | .error (.usage e) => system.refuse e; return .usage e
  | .ok options =>
    let wanted ← system.wanted
    system.runOptions options (options.threshold wanted) input

end System

/-! ### Reports -/

/-- What has been written to standard output and standard error. -/
structure Recording where
  stdout : String := ""
  stderr : Array String := #[]
  deriving DecidableEq, Repr

/-- A system that keeps what it is given. How it refuses arguments is not recorded. -/
def System.recorder (wanted : Option Threshold) (source : String → Source) :
    System (StateM Recording) where
  wanted := pure wanted
  openFile path := pure (source path)
  print text := modify fun r => { r with stdout := r.stdout ++ text }
  log line := modify fun r => { r with stderr := r.stderr.push line }
  refuse _ := pure ()

/-- Everything that can be seen of a run of the program. -/
structure Report where
  exit : Exit
  stdout : String := ""
  stderr : List String := []
  deriving DecidableEq, Repr

def Recording.report (r : Recording) (exit : Exit) : Report :=
  { exit, stdout := r.stdout, stderr := r.stderr.toList }

/-- A run whose standard input comes in in chunks. -/
def runChunks (args : List String) (wanted : Option Threshold) (source : String → Source)
    (chunks : List (List UInt8)) : Report :=
  let run := ((System.recorder wanted source).run args chunks).run {}
  run.2.report run.1

def runProgram (args : List String) (wanted : Option Threshold) (source : String → Source)
    (stdin : List UInt8) : Report :=
  runChunks args wanted source [stdin]

end EagerLambda
