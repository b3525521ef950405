import Assembler.Dump.Writer
import Assembler.Json.Shape

/-!
# Reading debug dumps

A dump is read back from its JSON text, however that text is laid out and in whatever order its
keys stand.  An address or a word that is missing may also be left out.

## Main definitions

* `Dump.shape`, and the shapes of its rows : the fields and their kinds.
* `Dump.ofText` : the dump that a text holds.
-/

namespace Assembler.Dump

open Json

/-- The field of a draft that a reader fills. -/
def field {α draft : Type} (name : String) (get : draft → Option α)
    (set : draft → α → draft) (read : Reader α) : FieldReader draft where
  name := name
  isFilled filled := (get filled).isSome
  read filled text := (read text).map fun (value, rest) => (set filled value, rest)

/-- The fields of a record that have been read. -/
structure Line.Draft where
  line : Option Nat := none
  address : Option Nat := none
  intermediate : Option String := none
  word : Option (Option String) := none

/-- How a record is given. -/
def Line.shape : Shape Line.Draft Line where
  name := "SdbLine"
  fields :=
    [field "line_number" Draft.line (fun d n => { d with line := some n })
        (readNatural .count),
      field "offset" Draft.address (fun d n => { d with address := some n })
        (readNatural .address),
      field "intermediate" Draft.intermediate (fun d s => { d with intermediate := some s })
        readText,
      field "word" Draft.word (fun d w => { d with word := some w }) (readOption readText)]
  blank := {}
  finish d := do
    let line ← required "line_number" d.line
    let address ← required "offset" d.address
    let intermediate ← required "intermediate" d.intermediate
    return ⟨line, address, intermediate, d.word.getD none⟩

/-- The fields of a symbol that have been read. -/
structure Symbol.Draft where
  index : Option Nat := none
  name : Option String := none
  address : Option (Option Nat) := none
  length : Option Nat := none

/-- How a symbol is given. -/
def Symbol.shape : Shape Symbol.Draft Symbol where
  name := "SdbSymbol"
  fields :=
    [field "index" Draft.index (fun d n => { d with index := some n }) (readNatural .count),
      field "name" Draft.name (fun d s => { d with name := some s }) readText,
      field "address" Draft.address (fun d a => { d with address := some a })
        (readOption (readNatural .address)),
      field "length" Draft.length (fun d n => { d with length := some n })
        (readNatural .address)]
  blank := {}
  finish d := do
    let index ← required "index" d.index
    let name ← required "name" d.name
    let length ← required "length" d.length
    return ⟨index, name, d.address.getD none, length⟩

/-- The fields of a literal that have been read. -/
structure Literal.Draft where
  index : Option Nat := none
  text : Option String := none
  address : Option (Option Nat) := none

/-- How a literal is given. -/
def Literal.shape : Shape Literal.Draft Literal where
  name := "SdbLiteral"
  fields :=
    [field "index" Draft.index (fun d n => { d with index := some n }) (readNatural .count),
      field "text" Draft.text (fun d s => { d with text := some s }) readText,
      field "address" Draft.address (fun d a => { d with address := some a })
        (readOption (readNatural .address))]
  blank := {}
  finish d := do
    let index ← required "index" d.index
    let text ← required "text" d.text
    return ⟨index, text, d.address.getD none⟩

/-- The fields of a dump that have been read. -/
structure Draft where
  name : Option String := none
  start : Option Nat := none
  lines : Option (List Line) := none
  symbols : Option (List Symbol) := none
  literals : Option (List Literal) := none
  pools : Option (List Nat) := none
  diagnostics : Option (List String) := none

/-- How a dump is given. -/
def shape : Shape Draft Dump where
  name := "Sdb"
  fields :=
    [field "name" Draft.name (fun d s => { d with name := some s }) readText,
      field "start" Draft.start (fun d n => { d with start := some n }) (readNatural .address),
      field "lines" Draft.lines (fun d xs => { d with lines := some xs })
        (readArray Line.shape.read),
      field "symbols" Draft.symbols (fun d xs => { d with symbols := some xs })
        (readArray Symbol.shape.read),
      field "literals" Draft.literals (fun d xs => { d with literals := some xs })
        (readArray Literal.shape.read),
      field "pools" Draft.pools (fun d xs => { d with pools := some xs })
        (readArray (readNatural .count)),
      field "diagnostics" Draft.diagnostics (fun d xs => { d with diagnostics := some xs })
        (readArray readText)]
  blank := {}
  finish d := do
    let name ← required "name" d.name
    let start ← required "start" d.start
    let lines ← required "lines" d.lines
    let symbols ← required "symbols" d.symbols
    let literals ← required "literals" d.literals
    let pools ← required "pools" d.pools
    let diagnostics ← required "diagnostics" d.diagnostics
    return ⟨name, start, lines, symbols, literals, pools, diagnostics⟩

/-- The dump that a text holds. -/
def ofText (text : String) : Except Failure Dump :=
  readDocument shape.read text.toList

end Assembler.Dump
