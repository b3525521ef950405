import Assembler.Assembly.Context
import Assembler.Assembly.Record
import Assembler.Location.Expression
import Assembler.Source.Statement

/-!
# The effect of a statement

Executing a statement binds its label, moves the location counter and produces a record.  A
statement that cannot be executed produces a fault and no record.  What it has done by then
stays: its label is bound, and an instruction or a constant has taken its word, so that the
addresses of the statements after it do not depend on whether its operands were in order.

## Main definitions

* `Effect` : what a source line does.
* `Context.instruction`, `Context.declaration`, `Context.origin`, `Context.placing`,
  `Context.equate` : the kinds of statements.
* `Context.execute` : the effect of a source line.
-/

namespace Assembler

/-- What a source line does. -/
structure Effect where
  /-- What is known afterwards. -/
  context : Context
  /-- Faults that do not keep the line from being executed. -/
  warnings : List Fault
  /-- The fault that does, or the record of the line if it has one. -/
  result : Except Fault (Option Record)

/-- The first operand of a statement that needs one. -/
def Statement.firstOperand (statement : Statement) : Except Fault String :=
  match statement.operands.first? with
  | some operand => .ok operand
  | none => .error (.malformed (.missingOperand statement.mnemonic))

/-- The register field of an instruction: 0, unless the first of two operands gives it. -/
def Operands.registerField (operands : Operands) (opcode : Opcode) : Except Fault Nat :=
  match operands with
  | .none => .ok 0
  | .one _ => .ok 0
  | .two register _ =>
    match opcode.registerField? register with
    | some field => .ok field
    | Option.none => .error (.malformed (.badRegister register))

/-- The number that a constant declaration holds.  Quotation marks around it are dropped. -/
def constantValue (operand : String) : Except Fault Nat :=
  let unquoted := (operand.toList.dropWhile (· == '\'')).reverse.dropWhile (· == '\'')
  match Text.readNumeral? maxAddress unquoted.reverse with
  | some value => .ok value
  | none => .error (.badOperand (.declaration .constant) operand)

namespace Context

/-- What a memory operand refers to, and the tables in which it is entered: a literal if it
begins like one and goes on, else a number, else a symbol. -/
def refer (context : Context) (operand : String) : Except Fault (Reference × Context) :=
  if beginsLiteral operand && 1 < operand.toList.length then
    let (index, literals) := context.literals.intern operand
    .ok (.literal index, { context with literals := literals })
  else if Text.isNumeral operand.toList then
    match Text.readNumeral? maxAddress operand.toList with
    | some value => .ok (.constant value, context)
    | none => .error (.malformed (.constantTooLarge operand))
  else if Text.isName operand.toList then
    let (index, symbols) := context.symbols.reference operand
    .ok (.symbol index, { context with symbols := symbols })
  else .error (.malformed (.badMemoryOperand operand))

/-- What the memory operand refers to, where a statement may have none. -/
def referOption (context : Context) : Option String → Except Fault (Reference × Context)
  | none => .ok (.none, context)
  | some operand => context.refer operand

/-- Executes an instruction.  Its word is taken before the operands are looked at. -/
def instruction (context : Context) (opcode : Opcode) (operands : Operands) :
    Context × Except Fault Record :=
  match Location.advance context.location 1 with
  | .error fault => (context, .error fault)
  | .ok next =>
    let moved := { context with location := next }
    match operands.registerField opcode with
    | .error fault => (moved, .error fault)
    | .ok register =>
      match moved.referOption operands.memory? with
      | .error fault => (moved, .error fault)
      | .ok (reference, entered) => (entered, .ok (.instruction opcode register reference))

/-- Executes the declaration of a constant.  Its word is taken before the operand is looked
at. -/
def declareConstant (context : Context) (statement : Statement) :
    Context × Except Fault Record :=
  match Location.advance context.location 1 with
  | .error fault => (context, .error fault)
  | .ok next =>
    ({ context with location := next },
      match statement.firstOperand with
      | .error fault => .error fault
      | .ok operand => (constantValue operand).map (.declaration .constant))

/-- Executes the declaration of storage, which gives its label a length. -/
def declareStorage (context : Context) (statement : Statement) :
    Context × Except Fault Record :=
  match Location.reserve context.location statement.operands.first? with
  | .error fault => (context, .error fault)
  | .ok (words, next) =>
    let symbols := match statement.label with
      | none => context.symbols
      | some label => context.symbols.setLength label words
    ({ context with location := next, symbols := symbols },
      .ok (.declaration .storage words))

/-- Executes a declaration. -/
def declaration (context : Context) (word : Declaration) (statement : Statement) :
    Context × Except Fault Record :=
  match word with
  | .constant => context.declareConstant statement
  | .storage => context.declareStorage statement

/-- Moves the location counter to the address that an operand denotes. -/
def moveTo (context : Context) (operand : String) : Except Fault (Nat × Context) :=
  match Expression.evaluate .origin operand context.symbols with
  | .error fault => .error fault
  | .ok target => .ok (target, { context with location := target })

/-- Executes the directive that moves the location counter. -/
def origin (context : Context) (statement : Statement) : Context × Except Fault Record :=
  match statement.firstOperand with
  | .error fault => (context, .error fault)
  | .ok operand =>
    match context.moveTo operand with
    | .error fault => (context, .error fault)
    | .ok (target, moved) => (moved, .ok (.directive .origin (some target)))

/-- Executes the directive that binds its label to an expression.  A label whose expression has
no value is entered in the symbol table all the same, without an address. -/
def equate (context : Context) (statement : Statement) : Effect :=
  match statement.label with
  | none => ⟨context, [], .error (.malformed .equWithoutLabel)⟩
  | some label =>
    match statement.firstOperand with
    | .error fault => ⟨context, [], .error fault⟩
    | .ok operand =>
      match Expression.evaluate .equ operand context.symbols with
      | .error fault =>
        let (_, symbols) := context.symbols.reference label
        ⟨{ context with symbols := symbols }, [], .error fault⟩
      | .ok value =>
        let (warnings, bound) := context.bindName label value
        ⟨bound, warnings, .ok (some (.directive .equ (some value)))⟩

/-- Executes a directive that places literals. -/
def placing (context : Context) (word : Directive) (place : Context → Except Fault Context) :
    Context × Except Fault Record :=
  match place context with
  | .error fault => (context, .error fault)
  | .ok placed => (placed, .ok (.directive word none))

/-- Binds the label of a statement to the location counter as it stands, and goes on from
there. -/
def afterLabel (context : Context) (label? : Option String)
    (perform : Context → Context × Except Fault Record) : Effect :=
  let (warnings, bound) := context.bindLabel label? context.location
  let (after, result) := perform bound
  ⟨after, warnings, result.map some⟩

/-- Executes a statement.  The label of an equation is bound to its expression, any other label
to the location counter as it stands before the statement. -/
def executeStatement (context : Context) (statement : Statement) : Effect :=
  match statement.mnemonic with
  | .directive .equ => context.equate statement
  | .directive .origin => context.afterLabel statement.label fun bound => bound.origin statement
  | .directive .ltorg => context.afterLabel statement.label (placing · .ltorg placePool)
  | .directive .finish => context.afterLabel statement.label (placing · .finish close)
  | .directive .start =>
    context.afterLabel statement.label fun bound => (bound, .error (.malformed .lateStart))
  | .declaration word =>
    context.afterLabel statement.label fun bound => bound.declaration word statement
  | .operation opcode =>
    context.afterLabel statement.label fun bound => bound.instruction opcode statement.operands

/-- Executes what was read from a line.  A literal alone on its line has no record. -/
def execute (context : Context) (source : Except Fault SourceLine) : Effect :=
  match source with
  | .error fault => ⟨context, [], .error fault⟩
  | .ok (.literal text) =>
    let (_, literals) := context.literals.intern text
    ⟨{ context with literals := literals }, [], .ok none⟩
  | .ok (.statement statement) => context.executeStatement statement

end Context

end Assembler
