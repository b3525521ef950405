import Assembler.Assembly.Program

/-!
# Debug dumps

A debug dump holds what the assembler knew about a program in a form that other tools can read:
its records with the machine words they gave, its symbols and literals, and what was said about
it.  Texts and numbers stand for themselves here; nothing in a dump refers back to the program.

## Main definitions

* `Dump`, and its rows `Dump.Line`, `Dump.Symbol` and `Dump.Literal`.
* `Dump.symbol?`, `Dump.lineAt?` : looking up a name and the word at an address.
* `pairWords` : records with the words that they gave.
* `Assembly.dump` : the dump of an assembled program.
-/

namespace Assembler

/-- A record of the program, with its word if it has one. -/
structure Dump.Line where
  line : Nat
  address : Nat
  intermediate : String
  word : Option String
  deriving DecidableEq, Repr

/-- A symbol of the program. -/
structure Dump.Symbol where
  index : Nat
  name : String
  address : Option Nat
  length : Nat
  deriving DecidableEq, Repr

/-- A literal of the program. -/
structure Dump.Literal where
  index : Nat
  text : String
  address : Option Nat
  deriving DecidableEq, Repr

/-- What the assembler knew about a program. -/
structure Dump where
  name : String
  start : Nat
  lines : List Dump.Line := []
  symbols : List Dump.Symbol := []
  literals : List Dump.Literal := []
  pools : List Nat := []
  diagnostics : List String := []
  deriving DecidableEq, Repr

namespace Dump

/-- The first symbol with a name. -/
def symbol? (dump : Dump) (name : String) : Option Symbol :=
  dump.symbols.find? fun symbol => symbol.name == name

/-- The first line that has a word at an address. -/
def lineAt? (dump : Dump) (address : Nat) : Option Line :=
  dump.lines.find? fun line => line.address == address && line.word.isSome

end Dump

/-- Records in order, each with the next word if that word is of the same line. -/
def pairWords :
    List (Located Record) → List (Located Word) → List (Located Record × Option Word)
  | [], _ => []
  | record :: records, [] => (record, none) :: pairWords records []
  | record :: records, word :: words =>
    if word.line = record.line then (record, some word.content) :: pairWords records words
    else (record, none) :: pairWords records (word :: words)

/-- The dump of an assembled program under a name. -/
def Assembly.dump (assembly : Assembly) (name : String) : Dump where
  name := name
  start := assembly.context.start
  lines := (pairWords assembly.records assembly.words).map fun (record, word) =>
    ⟨record.line, record.address, record.content.text, word.map Word.text⟩
  symbols := assembly.context.symbols.indexed.map fun (index, symbol) =>
    ⟨index, symbol.name, symbol.address, symbol.length⟩
  literals := assembly.context.literals.indexed.map fun (index, literal) =>
    ⟨index, literal.text, literal.address⟩
  pools := assembly.context.literals.pools
  diagnostics := assembly.diagnostics.map Diagnostic.text

end Assembler
