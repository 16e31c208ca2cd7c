import EagerLambda.RunError
import EagerLambda.Session
import EagerLambda.Text.Backspace
import EagerLambda.Text.Lines

/-!
# Transcripts

A transcript is a session with everything it has shown and logged. A script is
read line by line and stops at the first line that cannot be decoded. The
console is read line by line too, until its input ends; the backspaces in a line
are carried out before the line is entered, and an interrupt drops the line
being typed and nothing else.
-/

namespace EagerLambda

/-- A session with the lines it has shown and the events it has logged. -/
structure Transcript where
  session : Session
  shown : Array String := #[]
  events : Array Event := #[]

inductive Finish where
  | done
  | failed (e : RunError)
  /-- A line asked for an evaluation that takes longer than it was followed. -/
  | unfinished
  /-- The backspaces in a line could not be carried out. -/
  | aborted
  deriving DecidableEq, Repr

inductive ConsoleRead where
  | line (text : String)
  | interrupted
  | endOfInput
  | failed (cause : Fault)
  /-- The backspaces in the line could not be carried out. -/
  | aborted
  deriving DecidableEq, Repr

def readyMessage : String := "[funck] Ready."

def decodeLine (bytes : List UInt8) : Except Fault String :=
  match decodeUtf8? bytes with
  | some text => .ok text
  | none => .error .invalidUtf8

/-- The lines of a source, each decoded on its own. -/
def decodeLines (bytes : List UInt8) : List (Except Fault String) :=
  (splitLines bytes).map decodeLine

/-- What the console gives when a line is piped into it. -/
def ConsoleRead.ofLine : Except Fault String → ConsoleRead
  | .ok text =>
    match eraseBackspaces text with
    | .ok text => .line text
    | .error _ => .aborted
  | .error cause => .failed cause

def pipe (lines : List (Except Fault String)) : List ConsoleRead :=
  lines.map .ofLine ++ [.endOfInput]

namespace Transcript

def start (s : Session) : Transcript :=
  { session := s, shown := #[readyMessage] }

/-- Everything shown, each line with its line feed. -/
def output (t : Transcript) : String :=
  String.join (t.shown.toList.map (· ++ "\n"))

def enter (t : Transcript) (line : String) : LineOutcome × Transcript :=
  let r := t.session.enter line
  (r.result,
    { session := r.session
      shown := match r.result.message with
        | some text => t.shown.push text
        | none => t.shown
      events := t.events ++ r.events })

def enterScript (t : Transcript) : List (Except Fault String) → Finish × Transcript
  | [] => (.done, t)
  | .error cause :: _ => (.failed (.script cause), t)
  | .ok line :: lines =>
    match t.enter line with
    | (.unfinished, t') => (.unfinished, t')
    | (_, t') => t'.enterScript lines

/-- Enters what the console gives until its input ends. -/
def enterConsole (t : Transcript) : List ConsoleRead → Finish × Transcript
  | [] => (.done, t)
  | .endOfInput :: _ => (.done, t)
  | .failed cause :: _ => (.failed (.console (.fault cause)), t)
  | .aborted :: _ => (.aborted, t)
  | .interrupted :: reads => t.enterConsole reads
  | .line line :: reads =>
    match t.enter line with
    | (.unfinished, t') => (.unfinished, t')
    | (_, t') => t'.enterConsole reads

/-- Enters lines that are piped into the console. -/
def enterPiped (t : Transcript) (lines : List (Except Fault String)) : Finish × Transcript :=
  t.enterConsole (lines.map .ofLine)

end Transcript

/-- Runs a script, given as its bytes, in a session. -/
def runScript (s : Session) (bytes : List UInt8) : Finish × Transcript :=
  (Transcript.start s).enterScript (decodeLines bytes)

/-- Runs a session at a console into which bytes are piped. -/
def runConsole (s : Session) (bytes : List UInt8) : Finish × Transcript :=
  (Transcript.start s).enterConsole (pipe (decodeLines bytes))

end EagerLambda
