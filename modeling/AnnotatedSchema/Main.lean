import AnnotatedSchema.CommandLine.Run

/-! The program: it reads a schema document and writes SQL. -/

namespace AnnotatedSchema.CommandLine

/-- The text of a file, if it can be read. -/
def readFile? (path : Text) : IO (Option Text) := do
  try return some (← IO.FS.readFile (String.ofList path)).toList
  catch _ => return none

/-- Reads what the request asks for, and nothing else. -/
def gather (request : Request) : IO Inputs := do
  match request with
  | .version => return ⟨[], fun _ => none⟩
  | .run i =>
    match i.options.input with
    | none => return ⟨(← (← IO.getStdin).readToEnd).toList, fun _ => none⟩
    | some ['-'] => return ⟨(← (← IO.getStdin).readToEnd).toList, fun _ => none⟩
    | some path =>
      let text ← readFile? path
      return ⟨[], fun p => if p = path then text else none⟩

/-- Writes the text of an outcome where it belongs. The result tells whether that went well. -/
def write (outcome : Outcome) : IO Bool := do
  match outcome with
  | .written none text => IO.print (String.ofList text); return true
  | .written (some path) text =>
    try
      IO.FS.writeFile (String.ofList path) (String.ofList text)
      return true
    catch _ => return false
  | _ => return true

/-- Says what went wrong, if anything did. -/
def report (outcome : Outcome) : IO Unit := do
  match outcome with
  | .usageError => IO.eprintln "error: the arguments are not understood"
  | .failed failures message =>
    for failure in failures do IO.eprintln ("ERROR " ++ String.ofList failure)
    IO.eprintln ("Error: " ++ String.ofList message)
  | _ => pure ()

/-- Makes an outcome happen. The result is the exit code. -/
def realize (outcome : Outcome) : IO UInt32 := do
  let done ← write outcome
  let outcome := outcome.settle fun _ => done
  report outcome
  return UInt32.ofNat outcome.exitCode

end AnnotatedSchema.CommandLine

open AnnotatedSchema.CommandLine in
def main (arguments : List String) : IO UInt32 := do
  match request? (arguments.map String.toList) with
  | none => realize .usageError
  | some request => realize (perform (← gather request) request)
