import AnnotatedSchema.CommandLine.Arguments
import AnnotatedSchema.Document.Reader
import AnnotatedSchema.Document.Script
import AnnotatedSchema.Text.Terminal

/-! What a request leads to, as a function of the texts that can be read. -/

namespace AnnotatedSchema.CommandLine

/-- The texts within reach: the standard input, and files by their paths. -/
structure Inputs where
  standard : Text
  file? : Text → Option Text

inductive Outcome where
  /-- The command line is not well formed. -/
  | usageError
  /-- Nothing was written. The failures of a check come before the message. -/
  | failed (failures : List Text) (message : Text)
  /-- The text goes to a file, or to the standard output. -/
  | written (path : Option Text) (text : Text)
  /-- There is nothing to write. -/
  | done
  deriving DecidableEq

/-- A path could not be written. -/
def Outcome.unwritable (path : Text) : Outcome := failed [] ("failed to write " ++ path)

/-- The outcome after its text was to be written, if only some paths can be written. -/
def Outcome.settle (writable : Text → Bool) : Outcome → Outcome
  | written (some path) text =>
    if writable path then written (some path) text else unwritable path
  | outcome => outcome

/-- The exit code: 0 for success, 1 for a failure, 2 for a usage error. -/
def Outcome.exitCode : Outcome → Nat
  | usageError => 2
  | failed _ _ => 1
  | written _ _ => 0
  | done => 0

/-- The text of the schema document. Without a path, or with a dash for one, it is the standard
input. -/
def Inputs.document (i : Inputs) (path : Option Text) : Except Text Text :=
  match path with
  | none => .ok i.standard
  | some path =>
    if path = ['-'] then .ok i.standard
    else
      match i.file? path with
      | some text => .ok text
      | none => .error ("failed to read schema document " ++ path)

/-- The failures of a check as they are shown, and how many there are. -/
def checkOutcome : List Document.Failure → Outcome
  | [] => .done
  | failures =>
    .failed (failures.map (·.message.shown))
      (Text.ofNat failures.length ++ " model(s) failed to build")

/-- Writes a text, or reports why there is none. -/
def writeOutcome (path : Option Text) : Except DocumentError Text → Outcome
  | .ok text => .written path text
  | .error e => .failed [] e.message

/-- Carries out a command on a document. -/
def performCommand (output : Option Text) (d : Document) : Command → Outcome
  | .build => writeOutcome output d.scriptSql
  | .table model => writeOutcome output (d.tableSql model)
  | .check =>
    match d.check with
    | .ok failures => checkOutcome failures
    | .error e => .failed [] e.message

def runInvocation (inputs : Inputs) (i : Invocation) : Outcome :=
  match inputs.document i.options.input with
  | .error message => .failed [] message
  | .ok text =>
    match Document.ofText text with
    | .error e => .failed [] e.message
    | .ok d => performCommand i.options.output d i.command

def versionText : Text := "sqltag 0.1.0"

def perform (inputs : Inputs) : Request → Outcome
  | .version => .written none (versionText ++ "\n")
  | .run i => runInvocation inputs i

def run (inputs : Inputs) (arguments : List Text) : Outcome :=
  match request? arguments with
  | none => .usageError
  | some request => perform inputs request

end AnnotatedSchema.CommandLine
