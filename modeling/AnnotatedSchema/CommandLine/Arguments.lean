import AnnotatedSchema.Text.Basic

/-!
Reading the command line. Options come before the command; they can be written long or short, and
several short ones can share a dash. An option may be given once, and a path may not be empty. Once
the version is asked for, nothing after it counts.
-/

namespace AnnotatedSchema.CommandLine

inductive Command where
  /-- Writes the script of the document. -/
  | build
  /-- Writes the table of one model. -/
  | table (model : Text)
  /-- Reports all models that have no table. -/
  | check
  deriving DecidableEq

structure Options where
  input : Option Text
  output : Option Text
  verbose : Bool
  deriving DecidableEq

def Options.none : Options := ⟨.none, .none, false⟩

structure Invocation where
  options : Options
  command : Command
  deriving DecidableEq

inductive Request where
  /-- The name and version of the program. -/
  | version
  | run (i : Invocation)
  deriving DecidableEq

inductive PathOption where
  | input
  | output
  deriving DecidableEq

namespace Options

/-- Sets a path, unless it is empty or has been set before. -/
def setPath? (o : Options) (option : PathOption) (path : Text) : Option Options :=
  if path = [] then Option.none
  else
    match option, o.input, o.output with
    | .input, .none, _ => some { o with input := some path }
    | .output, _, .none => some { o with output := some path }
    | _, _, _ => Option.none

/-- Asks for more messages, unless that has been asked before. -/
def setVerbose? (o : Options) : Option Options :=
  if o.verbose then Option.none else some { o with verbose := true }

end Options

/-- Whether an argument can be the value of the option before it. Only a dash alone may start with a
dash. -/
def isValue (argument : Text) : Bool := argument.head? != some '-' || argument == ['-']

/-- What an argument leads to. -/
inductive Progress where
  /-- The version was asked for. -/
  | version
  | options (o : Options)
  /-- An option takes its path from the next argument. -/
  | wantsPath (o : Options) (option : PathOption)
  deriving DecidableEq

/-- Reads the letters after a single dash. The first option that takes a path takes the other
letters for it, without an equals sign in front of them, or the next argument if there are none. -/
def readShort? (o : Options) : Text → Option Progress
  | [] => some (.options o)
  | c :: letters =>
    let path (option : PathOption) : Option Progress :=
      match letters with
      | [] => some (.wantsPath o option)
      | '=' :: value => (o.setPath? option value).map .options
      | value => (o.setPath? option value).map .options
    if c = 'v' then o.setVerbose?.bind (readShort? · letters)
    else if c = 'V' then some .version
    else if c = 'i' then path .input
    else if c = 'o' then path .output
    else none

/-- Reads the name after two dashes. A path follows an equals sign or is the next argument. -/
def readLong? (o : Options) (name : Text) : Option Progress :=
  let key := name.takeWhile (· != '=')
  let path (option : PathOption) : Option Progress :=
    match name.dropWhile (· != '=') with
    | [] => some (.wantsPath o option)
    | _ :: value => (o.setPath? option value).map .options
  if name = "verbose".toList then o.setVerbose?.map .options
  else if name = "version".toList then some .version
  else if key = "input".toList then path .input
  else if key = "output".toList then path .output
  else none

/-- Reads an argument that starts with a dash, if it is an option. -/
def readOption? (o : Options) : Text → Option Progress
  | '-' :: '-' :: name => readLong? o name
  | '-' :: c :: letters => readShort? o (c :: letters)
  | _ => none

/-- The arguments of a command: the first `--` ends the options, of which a command has none. -/
def operands? : List Text → Option (List Text)
  | [] => some []
  | argument :: rest =>
    if argument = "--".toList then some rest
    else if isValue argument then (operands? rest).map (argument :: ·)
    else none

/-- The command with its operands. -/
def command? (name : Text) (rest : List Text) : Option Command :=
  match operands? rest with
  | some [] =>
    if name = "build".toList then some .build
    else if name = "check".toList then some .check
    else none
  | some [model] => if name = "table".toList then some (.table model) else none
  | _ => none

/-- Reads the arguments after the given options. -/
def readArguments? (o : Options) : List Text → Option Request
  | [] => none
  | argument :: rest =>
    if isValue argument then (command? argument rest).map fun command => .run ⟨o, command⟩
    else
      match readOption? o argument, rest with
      | some .version, _ => some .version
      | some (.options o), rest => readArguments? o rest
      | some (.wantsPath o option), value :: rest =>
        if isValue value then (o.setPath? option value).bind (readArguments? · rest) else none
      | _, _ => none

/-- What a command line asks for, if it is well formed. -/
def request? (arguments : List Text) : Option Request := readArguments? .none arguments

end AnnotatedSchema.CommandLine
