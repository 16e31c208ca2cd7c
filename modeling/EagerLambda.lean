import EagerLambda.Evaluation
import EagerLambda.Files
import EagerLambda.Log.Event
import EagerLambda.Log.Line
import EagerLambda.Main
import EagerLambda.Name
import EagerLambda.Options
import EagerLambda.Program
import EagerLambda.Proofs.Boundaries
import EagerLambda.Proofs.Calls
import EagerLambda.Proofs.CaptureFree
import EagerLambda.Proofs.Conflicts
import EagerLambda.Proofs.Console
import EagerLambda.Proofs.FreeNames
import EagerLambda.Proofs.FreeOccurrences
import EagerLambda.Proofs.FreshNames
import EagerLambda.Proofs.Grammar
import EagerLambda.Proofs.Hygiene
import EagerLambda.Proofs.InertBindings
import EagerLambda.Proofs.LimitedEvaluation
import EagerLambda.Proofs.Locality
import EagerLambda.Proofs.Logs
import EagerLambda.Proofs.Nameless
import EagerLambda.Proofs.NormalForms
import EagerLambda.Proofs.Paths
import EagerLambda.Proofs.PrintedValues
import EagerLambda.Proofs.Refinement
import EagerLambda.Proofs.Renames
import EagerLambda.Proofs.Reports
import EagerLambda.Proofs.RoundTrip
import EagerLambda.Proofs.Runs
import EagerLambda.Proofs.Scanner
import EagerLambda.Proofs.Scripts
import EagerLambda.Proofs.Sessions
import EagerLambda.Proofs.SlicedReader
import EagerLambda.Proofs.SmallStep
import EagerLambda.Proofs.Statements
import EagerLambda.Proofs.StepLimits
import EagerLambda.Proofs.Substitution
import EagerLambda.Proofs.SubstitutionCalls
import EagerLambda.RunError
import EagerLambda.Session
import EagerLambda.Statement
import EagerLambda.StepLimit
import EagerLambda.Substitution
import EagerLambda.Supply
import EagerLambda.Term.Basic
import EagerLambda.Term.Free
import EagerLambda.Term.Printer
import EagerLambda.Term.Reader
import EagerLambda.Text.Backspace
import EagerLambda.Text.Cluster
import EagerLambda.Text.Cluster.Class
import EagerLambda.Text.Lines
import EagerLambda.Text.Position
import EagerLambda.Text.Quoted
import EagerLambda.Text.Ranges
import EagerLambda.Text.Scan
import EagerLambda.Text.Token
import EagerLambda.Text.Unprintable
import EagerLambda.Transcript
import EagerLambda.Workspace
import EagerLambda.Proofs.Reports
