/-!
# Errors that end a run

Each error is a cause; the wording is in `message`.
-/

namespace EagerLambda

/-- Why a source could not be read on. -/
inductive Fault where
  | notFound
  | notDirectory
  | isDirectory
  | nameTooLong
  | invalidUtf8
  | other (reason : String)
  deriving DecidableEq, Repr

def Fault.message : Fault → String
  | notFound => "No such file or directory (os error 2)"
  | notDirectory => "Not a directory (os error 20)"
  | isDirectory => "Is a directory (os error 21)"
  | nameTooLong => "File name too long (os error 36)"
  | invalidUtf8 => "stream did not contain valid UTF-8"
  | other reason => reason

/-- Why no line could be read from the console. -/
inductive ConsoleError where
  | fault (cause : Fault)
  | endOfInput
  | interrupted
  deriving DecidableEq, Repr

def ConsoleError.message : ConsoleError → String
  | fault cause => cause.message
  | endOfInput => "EOF"
  | interrupted => "Interrupted"

inductive RunError where
  | script (cause : Fault)
  | console (cause : ConsoleError)
  | logging (reason : String)
  deriving DecidableEq, Repr

def RunError.message : RunError → String
  | script cause => "I/O error: " ++ cause.message
  | console cause => "Line editor error: " ++ cause.message
  | logging reason => "Logging setup error: " ++ reason

end EagerLambda
