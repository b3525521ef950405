import Assembler.Dump.Basic
import Assembler.Json.Writer

/-!
# Writing debug dumps

A dump is written as one JSON object.  Every field is written, in a fixed order, and an address
or a word that is missing is `null`.

## Main definitions

* `Dump.text` : the JSON text of a dump.
* `assembleWithDump` : machine code and dump text of a program without errors.
-/

namespace Assembler

namespace Dump

open Json

/-- The JSON text of a record. -/
def Line.write (line : Line) : List Char :=
  writeObject
    [("line_number", writeNatural line.line), ("offset", writeNatural line.address),
      ("intermediate", writeString line.intermediate),
      ("word", writeOption writeString line.word)]

/-- The JSON text of a symbol. -/
def Symbol.write (symbol : Symbol) : List Char :=
  writeObject
    [("index", writeNatural symbol.index), ("name", writeString symbol.name),
      ("address", writeOption writeNatural symbol.address),
      ("length", writeNatural symbol.length)]

/-- The JSON text of a literal. -/
def Literal.write (literal : Literal) : List Char :=
  writeObject
    [("index", writeNatural literal.index), ("text", writeString literal.text),
      ("address", writeOption writeNatural literal.address)]

/-- The JSON text of a dump, as characters. -/
def write (dump : Dump) : List Char :=
  writeObject
    [("name", writeString dump.name), ("start", writeNatural dump.start),
      ("lines", writeArray (dump.lines.map Line.write)),
      ("symbols", writeArray (dump.symbols.map Symbol.write)),
      ("literals", writeArray (dump.literals.map Literal.write)),
      ("pools", writeArray (dump.pools.map writeNatural)),
      ("diagnostics", writeArray (dump.diagnostics.map writeString))]

/-- The JSON text of a dump. -/
def text (dump : Dump) : String :=
  String.ofList dump.write

end Dump

/-- The machine code and the dump text of a program under a name, or the report on its
errors. -/
def assembleWithDump (text name : String) : Except String (String × String) :=
  (assemble text).usable.map fun assembly => (assembly.machineCode, (assembly.dump name).text)

end Assembler
