import Assembler.Assembly.Scan

/-!
# Encoding

Once a whole program has been read, every symbol that it binds has an address and the records
can be turned into machine words.  A record whose operand has no address, or a value that does
not fit its field, gives an error instead of a word, and the encoding goes on.

## Main definitions

* `Context.resolve` : the number that an operand stands for.
* `Context.encode` : the word of a record, if it has one.
* `Image`, `Context.image` : the words and errors of a list of records.
-/

namespace Assembler

/-- Machine words at their addresses, and the errors of the records that gave none. -/
structure Image where
  words : List (Located Word) := []
  diagnostics : List Diagnostic := []
  deriving DecidableEq, Repr

namespace Context

/-- The number that a memory operand stands for. -/
def resolve (context : Context) : Reference → Except Fault Nat
  | .symbol index =>
    match context.symbols.get? index with
    | none => .error (.danglingSymbol index)
    | some symbol =>
      match symbol.address with
      | none => .error (.undefinedSymbol symbol.name)
      | some address => .ok address
  | .literal index =>
    match context.literals.get? index with
    | none => .error (.danglingLiteral index)
    | some literal =>
      match literal.address with
      | none => .error (.unplacedLiteral literal.text)
      | some address => .ok address
  | .constant value => .ok value
  | .none => .ok 0

/-- The machine word of a record, if it has one. -/
def encode (context : Context) : Record → Except Fault (Option Word)
  | .directive _ _ => .ok none
  | .declaration .storage _ => .ok none
  | .declaration .constant value => ((Word.constant value).map some).mapError .overflow
  | .instruction opcode register operand =>
    match context.resolve operand with
    | .error fault => .error fault
    | .ok address => ((Word.instruction opcode register address).map some).mapError .overflow

/-- The words and errors of records in order. -/
def image (context : Context) : List (Located Record) → Image
  | [] => {}
  | record :: rest =>
    let later := context.image rest
    match context.encode record.content with
    | .ok (some word) =>
      { later with words := ⟨record.line, record.address, word⟩ :: later.words }
    | .ok none => later
    | .error fault =>
      { later with diagnostics := ⟨record.line, .error, fault⟩ :: later.diagnostics }

end Context

end Assembler
