/-!
# Command line arguments

The command takes the name of one source file, a name for the outputs and two switches, in any
order.  A value may stand behind its option or be attached to it, and behind two hyphens alone
every argument is a file name.  No option may be given twice, and no name may be empty.

Arguments are read from left to right, so a request for the version is granted as soon as it is
met, whatever may be wrong with the arguments behind it.

An argument is a text.  A system may let a file name be any sequence of bytes; a name that is not
a text, and how such a name would be shown in a report, are outside this account.

## Main definitions

* `Options` : what a run is to do.
* `Argument` : one argument by itself.
* `Request`, `Request.ofArguments` : what a list of arguments asks for.
-/

namespace Assembler.Command

/-- What a run is to do. -/
structure Options where
  /-- The name of the source file. -/
  input : String
  /-- The name of the outputs, unless it is made from the name of the source file. -/
  output : Option String
  /-- Whether the tables are printed. -/
  tables : Bool
  /-- Whether a warning makes the run fail. -/
  strict : Bool
  deriving DecidableEq, Repr

/-- The options that have been read. -/
structure Draft where
  input : Option String := none
  output : Option String := none
  tables : Bool := false
  strict : Bool := false
  deriving DecidableEq, Repr

/-- What a list of arguments asks for. -/
inductive Request
  | assemble (options : Options)
  | version
  | help
  /-- The arguments make no sense. -/
  | refused
  deriving DecidableEq, Repr

/-- One argument by itself. -/
inductive Argument
  | file (name : String)
  /-- The option for the outputs, with the value that is attached to it. -/
  | output (attached : Option String)
  | tables
  | strict
  | version
  | help
  | unknown
  deriving DecidableEq, Repr

namespace Argument

/-- A long option, by its name and the value that is attached to it. -/
def ofLong (name : String) (attached : Option String) : Argument :=
  match name, attached with
  | "output", value => output value
  | "tables", none => tables
  | "strict", none => strict
  | "version", none => version
  | "help", none => help
  | _, _ => unknown

/-- A short option, by its letter and the characters behind it. -/
def ofShort (letter : Char) (rest : List Char) : Argument :=
  match letter, rest with
  | 'o', [] => output none
  | 'o', '=' :: value => output (some (String.ofList value))
  | 'o', value => output (some (String.ofList value))
  | 'V', _ => version
  | 'h', _ => help
  | _, _ => unknown

/-- One argument by itself.  A hyphen alone is a file name. -/
def ofText (text : String) : Argument :=
  match text.toList with
  | '-' :: '-' :: long =>
    let name := String.ofList (long.takeWhile (· != '='))
    match long.dropWhile (· != '=') with
    | [] => ofLong name none
    | _ :: value => ofLong name (some (String.ofList value))
  | '-' :: letter :: rest => ofShort letter rest
  | _ => file text

end Argument

namespace Draft

/-- The draft with the name of the source file. -/
def setInput? (draft : Draft) (name : String) : Option Draft :=
  if draft.input.isSome || name.isEmpty then none else some { draft with input := some name }

/-- The draft with the name of the outputs. -/
def setOutput? (draft : Draft) (name : String) : Option Draft :=
  if draft.output.isSome || name.isEmpty then none else some { draft with output := some name }

/-- The draft with the switch that prints the tables. -/
def setTables? (draft : Draft) : Option Draft :=
  if draft.tables then none else some { draft with tables := true }

/-- The draft with the switch that lets warnings fail a run. -/
def setStrict? (draft : Draft) : Option Draft :=
  if draft.strict then none else some { draft with strict := true }

/-- What a draft asks for when there are no more arguments. -/
def request (draft : Draft) : Request :=
  match draft.input with
  | some input => .assemble ⟨input, draft.output, draft.tables, draft.strict⟩
  | none => .refused

end Draft

namespace Request

/-- What a draft and a list of file names ask for. -/
def ofFiles (draft : Draft) : List String → Request
  | [] => draft.request
  | name :: rest =>
    match draft.setInput? name with
    | some next => ofFiles next rest
    | none => refused

/-- What a draft and the arguments that are left ask for.  A value that stands behind its option
must not look like an option itself. -/
def extend (draft : Draft) : List String → Request
  | [] => draft.request
  | text :: rest =>
    if text = "--" then ofFiles draft rest
    else
      match Argument.ofText text, rest with
      | .file name, rest =>
        match draft.setInput? name with
        | some next => extend next rest
        | none => refused
      | .output (some value), rest =>
        match draft.setOutput? value with
        | some next => extend next rest
        | none => refused
      | .output none, value :: rest =>
        match Argument.ofText value, draft.setOutput? value with
        | .file _, some next => extend next rest
        | _, _ => refused
      | .output none, [] => refused
      | .tables, rest =>
        match draft.setTables? with
        | some next => extend next rest
        | none => refused
      | .strict, rest =>
        match draft.setStrict? with
        | some next => extend next rest
        | none => refused
      | .version, _ => version
      | .help, _ => help
      | .unknown, _ => refused

/-- What a list of arguments asks for. -/
def ofArguments (arguments : List String) : Request :=
  extend {} arguments

end Request

end Assembler.Command
