import Assembler.Machine.Opcode

/-!
# Mnemonics

The second word of a statement says what the statement does.  It is a directive to the
assembler, a declaration of storage, or an operation of the machine.  The three vocabularies
have no name in common.

## Main definitions

* `Directive`, `Declaration` : the vocabularies beside `Opcode`.
* `Mnemonic` : a word of one of the three vocabularies.
* `Mnemonic.ofToken?` : the mnemonic that a token spells.
-/

namespace Assembler

/-- An instruction to the assembler. -/
inductive Directive
  | start
  | finish
  | origin
  | equ
  | ltorg
  deriving DecidableEq, Repr

/-- A declaration of storage: of a constant, or of room for words. -/
inductive Declaration
  | constant
  | storage
  deriving DecidableEq, Repr

/-- The name of a directive. -/
def Directive.name : Directive → String
  | start => "START"
  | finish => "END"
  | origin => "ORIGIN"
  | equ => "EQU"
  | ltorg => "LTORG"

/-- The code of a directive in intermediate code. -/
def Directive.code : Directive → Nat
  | start => 1
  | finish => 2
  | origin => 3
  | equ => 4
  | ltorg => 5

/-- The name of a declaration. -/
def Declaration.name : Declaration → String
  | constant => "DC"
  | storage => "DS"

/-- The code of a declaration in intermediate code. -/
def Declaration.code : Declaration → Nat
  | constant => 1
  | storage => 2

/-- The directives form a vocabulary. -/
instance : Vocabulary Directive where
  all := [.start, .finish, .origin, .equ, .ltorg]
  name := Directive.name
  code := Directive.code

/-- The declarations form a vocabulary. -/
instance : Vocabulary Declaration where
  all := [.constant, .storage]
  name := Declaration.name
  code := Declaration.code

/-- The word that says what a statement does. -/
inductive Mnemonic
  | directive (directive : Directive)
  | declaration (declaration : Declaration)
  | operation (opcode : Opcode)
  deriving DecidableEq, Repr

namespace Mnemonic

/-- The mnemonic that a token spells, in any ASCII letter case. -/
def ofToken? (token : String) : Option Mnemonic :=
  ((Vocabulary.named? token).map directive).or
    (((Vocabulary.named? token).map declaration).or ((Vocabulary.named? token).map operation))

/-- The name of a mnemonic, in upper case. -/
def name : Mnemonic → String
  | directive word => word.name
  | declaration word => word.name
  | operation word => word.name

/-- The code of a mnemonic within its class. -/
def code : Mnemonic → Nat
  | directive word => word.code
  | declaration word => word.code
  | operation word => word.code

/-- The two letters that mark the class of a mnemonic: assembler directive, declarative or
imperative statement. -/
def classMark : Mnemonic → String
  | directive _ => "AD"
  | declaration _ => "DL"
  | operation _ => "IS"

/-- Every mnemonic is found under its own name. -/
theorem ofToken?_name (mnemonic : Mnemonic) : ofToken? mnemonic.name = some mnemonic := by
  cases mnemonic with
  | directive word => cases word <;> decide +kernel
  | declaration word => cases word <;> decide +kernel
  | operation word => cases word <;> decide +kernel

end Mnemonic

end Assembler
