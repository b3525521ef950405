import Assembler.Text.Line

/-!
# The symbol table

Symbols are kept in the order in which the program first mentions them, and a symbol is known
to the rest of the assembler by its index in that order, counted from 1.  A symbol may be
mentioned long before it is bound to an address, and it may be bound again later: the last
binding holds.  Names are never removed, so an index keeps its meaning for good.

A row carries the name that it is found by.  Rows that are kept under a key have the name twice,
as the key and in the row; here the two are one, so that they agree is part of the type.

## Main definitions

* `Symbol`, `SymbolTable` : rows and tables.
* `SymbolTable.index` : the index that a name has, or will have when it is entered next.
* `SymbolTable.reference`, `SymbolTable.define` : mentioning and binding a name.
* `SymbolTable.get?`, `SymbolTable.find?` : rows by index and by name.
* `SymbolTable.text` : the printed table.

## Main results

* `SymbolTable.names_enter`, `SymbolTable.names_define` : a name that is mentioned or bound comes
  to stand at the end of the table, unless it is there.
* `SymbolTable.names_setLength` : setting a length changes no name.
-/

namespace Assembler

/-- A row of the symbol table. -/
structure Symbol where
  name : String
  /-- The address that the name was last bound to. -/
  address : Option Nat := none
  /-- The number of words that stand there. -/
  length : Nat := 1
  deriving DecidableEq, Repr

/-- Symbols in the order of their first mention. -/
structure SymbolTable where
  symbols : List Symbol := []
  deriving DecidableEq, Repr

/-- What the binding of a name reports: the index of the name, and the address that it had
before. -/
structure Binding where
  index : Nat
  previous : Option Nat
  deriving DecidableEq, Repr

namespace SymbolTable

/-- The names of a table in the order of their indices. -/
def names (table : SymbolTable) : List String :=
  table.symbols.map Symbol.name

/-- The number of symbols. -/
def size (table : SymbolTable) : Nat :=
  table.symbols.length

/-- The index of a name.  A name that is not in the table has the index that it would get by
being entered. -/
def index (table : SymbolTable) (name : String) : Nat :=
  table.names.idxOf name + 1

/-- The row with an index, counted from 1. -/
def get? (table : SymbolTable) : Nat → Option Symbol
  | 0 => none
  | position + 1 => table.symbols[position]?

/-- The row of a name. -/
def find? (table : SymbolTable) (name : String) : Option Symbol :=
  table.symbols.find? fun symbol => symbol.name == name

/-- The address that a name is bound to. -/
def addressOf? (table : SymbolTable) (name : String) : Option Nat :=
  (table.find? name).bind Symbol.address

/-- A table in which a name has a row: at the end, without an address, if it had none. -/
def enter (table : SymbolTable) (name : String) : SymbolTable :=
  if name ∈ table.names then table else ⟨table.symbols ++ [⟨name, none, 1⟩]⟩

/-- A table with the row of one name changed. -/
def update (table : SymbolTable) (name : String) (change : Symbol → Symbol) : SymbolTable :=
  ⟨table.symbols.map fun symbol => if symbol.name = name then change symbol else symbol⟩

/-- The index of a name, and the table in which it is entered.  No address changes. -/
def reference (table : SymbolTable) (name : String) : Nat × SymbolTable :=
  (table.index name, table.enter name)

/-- What binding a name to an address reports, and the table in which it is bound. -/
def define (table : SymbolTable) (name : String) (address : Nat) : Binding × SymbolTable :=
  (⟨table.index name, table.addressOf? name⟩,
    (table.enter name).update name fun symbol => { symbol with address := some address })

/-- A table with the length of one name set.  A name without a row gets none. -/
def setLength (table : SymbolTable) (name : String) (length : Nat) : SymbolTable :=
  table.update name fun symbol => { symbol with length := length }

/-- A name that is entered comes to stand at the end, unless it is there. -/
theorem names_enter (table : SymbolTable) (name : String) :
    (table.enter name).names =
      if name ∈ table.names then table.names else table.names ++ [name] := by
  unfold enter
  split <;> simp [names]

/-- A change that keeps the name of a row keeps all names. -/
theorem names_update (table : SymbolTable) (name : String) {change : Symbol → Symbol}
    (hchange : ∀ symbol, (change symbol).name = symbol.name) :
    (table.update name change).names = table.names := by
  simp only [names, update, List.map_map]
  apply List.map_congr_left
  intro symbol _
  simp only [Function.comp_apply]
  split
  · exact hchange symbol
  · rfl

/-- A name that is bound comes to stand at the end, unless it is there. -/
theorem names_define (table : SymbolTable) (name : String) (address : Nat) :
    (table.define name address).2.names = (table.enter name).names :=
  names_update _ _ fun _ => rfl

/-- Setting a length changes no name. -/
theorem names_setLength (table : SymbolTable) (name : String) (length : Nat) :
    (table.setLength name length).names = table.names :=
  names_update _ _ fun _ => rfl

/-- Every symbol with its index. -/
def indexed (table : SymbolTable) : List (Nat × Symbol) :=
  (table.symbols.zipIdx 1).map Prod.swap

/-- The printed row of a symbol: index, name, address and length, with 0 for a missing
address. -/
def rowText (index : Nat) (symbol : Symbol) : String :=
  index.repr ++ " " ++ symbol.name ++ " " ++ (symbol.address.getD 0).repr ++ " " ++
    symbol.length.repr

/-- The printed table, one row a line. -/
def text (table : SymbolTable) : String :=
  Text.ofLines (table.indexed.map fun (index, symbol) => rowText index symbol)

end SymbolTable

end Assembler
