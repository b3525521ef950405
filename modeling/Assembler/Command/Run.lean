import Assembler.Command.Arguments
import Assembler.Command.Storage
import Assembler.Dump.Writer

/-!
# A run of the command

A run reads the source file, reports what is wrong with it, writes three outputs and may print
the tables.  Outputs are written also for a program with errors; the run fails afterwards.  When
an output cannot be written, the run stops: the outputs before it stay, and nothing is printed.

The storage in which a run takes place has files and directories, and every name in it is a text.
Names that are not texts, links from one name to another, permissions, and an environment that
asks for a log of the run are left out: a run is a function of its arguments and of the storage.

## Main definitions

* `Plan`, `Options.plan` : what a run does once it has the text of its source file.
* `Outcome` : what a run prints, and its exit status.
* `Options.run`, `run` : a run in a storage.
-/

namespace Assembler.Command

/-- The exit status of a run and what it prints. -/
structure Outcome where
  status : Nat := 0
  output : String := ""
  errors : String := ""
  deriving DecidableEq, Repr

/-- What a run does once it has the text of its source file. -/
structure Plan where
  /-- The lines that report the diagnostics. -/
  reports : List String
  /-- The outputs by path, in the order in which they are written. -/
  outputs : List (String × String)
  /-- What is printed when they are. -/
  tables : String
  /-- Why the run fails even so. -/
  failure : Option String
  deriving DecidableEq, Repr

/-- The line that reports why a run fails. -/
def failureText (reason : String) : String :=
  "Error: " ++ reason ++ "\n"

/-- The lines that report what could not be done with a file, and why. -/
def troubleText (action path cause : String) : String :=
  failureText (action ++ " " ++ path) ++ "\nCaused by:\n    " ++ cause ++ "\n"

/-- The printed symbol, literal and pool tables. -/
def tablesText (context : Context) : String :=
  "SYMBOL TABLE\n" ++ context.symbols.text ++ "\nLITERAL TABLE\n" ++ context.literals.text ++
    "\nPOOL TABLE\n" ++ context.literals.poolText

namespace Options

/-- The path that the names of the outputs begin with. -/
def outputBase (options : Options) : String :=
  options.output.getD (Path.withoutExtension options.input)

/-- The outputs of an assembly by path. -/
def outputs (options : Options) (assembly : Assembly) : List (String × String) :=
  let base := options.outputBase
  [(base ++ ".mc", assembly.machineCode), (base ++ ".ic", assembly.intermediateCode),
    (base ++ ".sdb", (assembly.dump (Path.stemOf base)).text)]

/-- Whether a run fails for what was found in the program. -/
def fails (options : Options) (assembly : Assembly) : Bool :=
  if options.strict then !assembly.diagnostics.isEmpty else assembly.hasErrors

/-- What a run does once it has the text of its source file. -/
def plan (options : Options) (text : String) : Plan :=
  let assembly := assemble text
  { reports := assembly.diagnostics.map fun diagnostic =>
      options.input ++ ": " ++ diagnostic.text
    outputs := options.outputs assembly
    tables := if options.tables then tablesText assembly.context else ""
    failure :=
      if options.fails assembly then
        some (options.input ++ ": " ++ assembly.diagnostics.length.repr ++ " diagnostic(s)")
      else none }

end Options

namespace Plan

/-- What a run prints that has written all its outputs. -/
def outcome (plan : Plan) : Outcome :=
  match plan.failure with
  | none => ⟨0, plan.tables, Text.ofLines plan.reports⟩
  | some reason => ⟨1, plan.tables, Text.ofLines plan.reports ++ failureText reason⟩

/-- What a run prints that could not write one of its outputs. -/
def stopped (plan : Plan) (path cause : String) : Outcome :=
  ⟨1, "", Text.ofLines plan.reports ++ troubleText "writing" path cause⟩

end Plan

/-- Writes texts to files in order, up to the first that cannot be written. -/
def writeAll (storage : Storage) :
    List (String × String) → Option (String × Trouble) × Storage
  | [] => (none, storage)
  | (path, text) :: rest =>
    match storage.write path text with
    | .ok written => writeAll written rest
    | .error trouble => (some (path, trouble), storage)

/-- A run with options in a storage. -/
def Options.run (options : Options) (storage : Storage) : Outcome × Storage :=
  match storage.read options.input with
  | .error trouble => (⟨1, "", troubleText "reading" options.input trouble.message⟩, storage)
  | .ok text =>
    let plan := options.plan text
    match writeAll storage plan.outputs with
    | (none, written) => (plan.outcome, written)
    | (some (path, trouble), written) => (plan.stopped path trouble.message, written)

/-- The line that names the command and its version. -/
def versionText : String := "hypasm 0.1.0\n"

/-- A short description of the arguments.  The text is of this module's own making: the help of the
command is worded and laid out by the library that reads its arguments, and nothing depends on
how. -/
def helpText : String :=
  "Two-pass assembler for the hypothetical machine\n\n" ++
    "Usage: hypasm [OPTIONS] <INPUT>\n\n" ++
    "Options:\n" ++
    "  -o, --output <OUTPUT>  Output name; `.mc`, `.ic` and `.sdb` are appended\n" ++
    "      --tables           Print the symbol, literal and pool tables\n" ++
    "      --strict           Fail on warnings too\n" ++
    "  -h, --help             Print help\n" ++
    "  -V, --version          Print version\n"

/-- The exit status of a run whose arguments make no sense. -/
def usageStatus : Nat := 2

/-- The outcome of a run whose arguments make no sense.  The status is that of such a run.  The
message, like the help, is of this module's own making: the library that reads the arguments also
says which of them is at fault. -/
def usageOutcome : Outcome :=
  ⟨usageStatus, "", "error: the arguments are not understood\n\n" ++ helpText⟩

/-- A run with arguments in a storage. -/
def run (arguments : List String) (storage : Storage) : Outcome × Storage :=
  match Request.ofArguments arguments with
  | .assemble options => options.run storage
  | .version => (⟨0, versionText, ""⟩, storage)
  | .help => (⟨0, helpText, ""⟩, storage)
  | .refused => (usageOutcome, storage)

end Assembler.Command
