import Assembler.Machine.Word
import Assembler.Source.Mnemonic

/-!
# Intermediate records

The first reading of a program turns every statement into a record: the statement with its
operands replaced by numbers and by indices into the symbol and literal tables.  A record is
complete but for the addresses of symbols that are bound further down.

## Main definitions

* `Reference`, `Record` : operands and records.
* `Record.wordCount` : the number of machine words that a record stands for.
* `Record.text` : the printed form, such as `(IS,04)(1)(S,1)`.
* `Located` : a thing with its source line and its address.
-/

namespace Assembler

/-- The memory operand of an instruction. -/
inductive Reference
  /-- The symbol with an index. -/
  | symbol (index : Nat)
  /-- The literal with an index. -/
  | literal (index : Nat)
  /-- A number. -/
  | constant (value : Nat)
  /-- There is no operand. -/
  | none
  deriving DecidableEq, Repr

/-- The record of a statement. -/
inductive Record
  | directive (directive : Directive) (operand : Option Nat)
  | declaration (declaration : Declaration) (operand : Nat)
  | instruction (opcode : Opcode) (register : Nat) (operand : Reference)
  deriving DecidableEq, Repr

/-- A thing that belongs to a line of the program and to an address. -/
structure Located (α : Type) where
  /-- The number of the line, counted from 1. -/
  line : Nat
  address : Nat
  content : α
  deriving DecidableEq, Repr

/-- The printed form of an operand. -/
def Reference.text : Reference → String
  | symbol index => "(S," ++ index.repr ++ ")"
  | literal index => "(L," ++ index.repr ++ ")"
  | constant value => "(C," ++ value.repr ++ ")"
  | none => ""

namespace Record

/-- The number of machine words that a record stands for.  Reserved storage holds no words. -/
def wordCount : Record → Nat
  | directive _ _ => 0
  | declaration .constant _ => 1
  | declaration .storage _ => 0
  | instruction _ _ _ => 1

/-- The printed class and code of a mnemonic. -/
def headText (mnemonic : Mnemonic) : String :=
  "(" ++ mnemonic.classMark ++ "," ++ Text.padded 2 mnemonic.code ++ ")"

/-- The printed form of a record.  An instruction without register and operand is its code
alone. -/
def text : Record → String
  | directive word operand =>
    headText (.directive word) ++ ((operand.map Reference.constant).getD .none).text
  | declaration word operand =>
    headText (.declaration word) ++ (Reference.constant operand).text
  | instruction opcode register operand =>
    headText (.operation opcode) ++
      if register = 0 ∧ operand = .none then ""
      else "(" ++ register.repr ++ ")" ++ operand.text

end Record

end Assembler
