import Assembler.Machine.Word
import Assembler.Source.Mnemonic

/-!
# Faults and diagnostics

A fault is one cause for which a statement cannot be assembled as written.  The assembler does
not stop at a fault: it notes a diagnostic, which joins the fault with a line number and says
whether it is an error or only a warning.

## Main definitions

* `Malformation`, `Fault` : the causes.
* `Fault.kind` : the class of a fault, by which faults are counted and compared.
* `Fault.message` : the sentence that reports a fault.
* `Diagnostic`, `Diagnostic.text` : a fault on a line, and the line that reports it.
-/

namespace Assembler

/-- Why a statement as a whole makes no sense. -/
inductive Malformation
  /-- The line holds no token. -/
  | empty
  /-- The first token stands in the place of a label and is no name. -/
  | badLabel (token : String)
  /-- More than two operands follow the mnemonic. -/
  | tooManyOperands (mnemonic : Mnemonic) (count : Nat)
  /-- The directive that opens a program stands further down. -/
  | lateStart
  /-- There is no label that could be equated. -/
  | equWithoutLabel
  /-- The mnemonic needs an operand and has none. -/
  | missingOperand (mnemonic : Mnemonic)
  /-- The first of two operands is no register. -/
  | badRegister (token : String)
  /-- The operand is a numeral above the largest address. -/
  | constantTooLarge (token : String)
  /-- The memory operand is neither a symbol nor a literal nor a constant. -/
  | badMemoryOperand (token : String)
  deriving DecidableEq, Repr

/-- A cause for which a statement cannot be assembled as written. -/
inductive Fault
  | malformed (reason : Malformation)
  /-- The operand of a directive or declaration cannot be used. -/
  | badOperand (mnemonic : Mnemonic) (operand : String)
  /-- A symbol is used and never bound to an address. -/
  | undefinedSymbol (name : String)
  /-- A record refers to a row that the symbol table does not have. -/
  | danglingSymbol (index : Nat)
  /-- A literal was never placed. -/
  | unplacedLiteral (text : String)
  /-- A record refers to a row that the literal table does not have. -/
  | danglingLiteral (index : Nat)
  | unknownMnemonic (token : String)
  /-- A value does not fit its field of the machine word. -/
  | overflow (field : FieldOverflow)
  /-- Words would come to stand above the largest address. -/
  | locationOverflow (location words : Nat)
  /-- A symbol is bound that already had an address. -/
  | redefinition (name : String) (previous : Nat)
  | missingStart
  | missingEnd
  deriving DecidableEq, Repr

/-- The classes of faults. -/
inductive Fault.Kind
  | malformedStatement
  | badOperand
  | undefinedSymbol
  | unresolvedLiteral
  | unknownMnemonic
  | fieldOverflow
  | locationOverflow
  | redefinition
  | missingStart
  | missingEnd
  deriving DecidableEq, Repr

/-- The words that report a malformed statement. -/
def Malformation.message : Malformation → String
  | empty => "empty statement"
  | badLabel token => "`" ++ token ++ "` is not a valid label"
  | tooManyOperands mnemonic count =>
    mnemonic.name ++ " takes at most two operands, found " ++ count.repr
  | lateStart => "START must be the first statement"
  | equWithoutLabel => "EQU needs a label to bind"
  | missingOperand mnemonic => mnemonic.name ++ " needs an operand"
  | badRegister token => "`" ++ token ++ "` is not a register"
  | constantTooLarge token => "constant `" ++ token ++ "` is too large"
  | badMemoryOperand token => "`" ++ token ++ "` is not a symbol, literal or constant"

namespace Fault

/-- The class of a fault.  A dangling index counts as the missing thing that it refers to. -/
def kind : Fault → Kind
  | malformed _ => .malformedStatement
  | badOperand _ _ => .badOperand
  | undefinedSymbol _ => .undefinedSymbol
  | danglingSymbol _ => .undefinedSymbol
  | unplacedLiteral _ => .unresolvedLiteral
  | danglingLiteral _ => .unresolvedLiteral
  | unknownMnemonic _ => .unknownMnemonic
  | overflow _ => .fieldOverflow
  | locationOverflow _ _ => .locationOverflow
  | redefinition _ _ => .redefinition
  | missingStart => .missingStart
  | missingEnd => .missingEnd

/-- The sentence that reports a fault. -/
def message : Fault → String
  | malformed reason => "malformed statement: " ++ reason.message
  | badOperand mnemonic operand =>
    "invalid operand for " ++ mnemonic.name ++ ": `" ++ operand ++ "`"
  | undefinedSymbol name => "undefined symbol `" ++ name ++ "`"
  | danglingSymbol index => "undefined symbol `#" ++ index.repr ++ "`"
  | unplacedLiteral text => "literal " ++ text ++ " has no address"
  | danglingLiteral index => "literal #" ++ index.repr ++ " has no address"
  | unknownMnemonic token => "unknown mnemonic `" ++ token ++ "`"
  | overflow field => field.message
  | locationOverflow location words =>
    "location counter overflows placing " ++ words.repr ++ " word(s) at " ++ location.repr
  | redefinition name previous => "symbol `" ++ name ++ "` redefined, was " ++ previous.repr
  | missingStart => "program does not begin with START, assembling from 0"
  | missingEnd => "program has no END statement"

end Fault

/-- How much weight a fault has. -/
inductive Severity
  | warning
  | error
  deriving DecidableEq, Repr

/-- The name of a severity. -/
def Severity.name : Severity → String
  | warning => "warning"
  | error => "error"

/-- A fault that was found on a line of the program. -/
structure Diagnostic where
  /-- The number of the line, counted from 1. -/
  line : Nat
  severity : Severity
  fault : Fault
  deriving DecidableEq, Repr

namespace Diagnostic

/-- Whether a diagnostic is an error. -/
def isError (diagnostic : Diagnostic) : Bool :=
  diagnostic.severity == .error

/-- The line that reports a diagnostic. -/
def text (diagnostic : Diagnostic) : String :=
  "line " ++ diagnostic.line.repr ++ ": " ++ diagnostic.severity.name ++ ": " ++
    diagnostic.fault.message

end Diagnostic

end Assembler
