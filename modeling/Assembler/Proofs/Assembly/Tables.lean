import Assembler.Proofs.Assembly.Citation
import Assembler.Proofs.Assembly.Success
import Assembler.Proofs.Text.Decimal
import Assembler.Proofs.Text.Row

/-!
# Tables that are read back

A table is printed in plain rows: nothing is quoted, and an entry without an address is printed as
if it stood at address 0.  Rows say what is in the table all the same when every name and every
literal is a word and every entry has an address.  The first holds of every program, and the second
of a program without errors.

## Main definitions

* `SymbolTable.cells`, `LiteralTable.cells` : the cells in the row of an entry.
* `SymbolTable.ofText?`, `LiteralTable.ofText?`, `LiteralTable.poolsOfText?` : the entries and the
  pools in printed tables.
* `Tabulated` : a program whose printed tables say all that is in its tables.

## Main results

* `SymbolTable.ofText?_text`, `LiteralTable.ofText?_text` : the entries are recovered.
* `LiteralTable.poolsOfText?_poolText` : the pools are recovered, whatever they are.
* `tabulated_of_not_hasErrors` : a program without errors is tabulated.
-/

namespace Assembler

/-! ### Symbols -/

namespace SymbolTable

variable {table other : SymbolTable}

private theorem eq_of_indexed_eq (h : table.indexed = other.indexed) : table = other :=
  congrArg mk (Keyed.indexed_injective h)

/-- The cells in the row of a symbol: index, name, address and length. -/
def cells (entry : Nat × Symbol) : List String :=
  [entry.1.repr, entry.2.name, (entry.2.address.getD 0).repr, entry.2.length.repr]

/-- The symbol in a row, with its index. -/
def ofCells? : List String → Option (Nat × Symbol)
  | [index, name, address, length] => do
    return (← Text.number? index.toList,
      ⟨name, ← Text.number? address.toList, ← Text.number? length.toList⟩)
  | _ => none

/-- The symbols in a printed table, with their indices. -/
def ofText? (text : String) : Option (List (Nat × Symbol)) :=
  (Text.cells text).mapM ofCells?

theorem text_eq (table : SymbolTable) : table.text = Text.ofCells (table.indexed.map cells) := by
  rw [text, Text.ofCells, List.map_map]
  rfl

/-- The printed table is split into its cells. -/
theorem cells_text (hnames : ∀ name ∈ table.names, IsWord name) :
    Text.cells table.text = table.indexed.map cells := by
  rw [text_eq]
  refine Text.cells_ofCells (List.forall_mem_map.mpr fun entry hentry => ?_)
  have hname : entry.2.name ∈ table.names :=
    List.mem_map_of_mem (Keyed.mem_of_mem_indexed hentry)
  refine ⟨List.cons_ne_nil _ _, ?_⟩
  simp only [cells, List.forall_mem_cons]
  exact ⟨Text.isCell_repr _, (hnames _ hname).2, Text.isCell_repr _, Text.isCell_repr _,
    fun _ hmem => absurd hmem List.not_mem_nil⟩

theorem ofCells?_cells {entry : Nat × Symbol} (h : entry.2.address.isSome) :
    ofCells? (cells entry) = some entry := by
  obtain ⟨index, name, address, length⟩ := entry
  obtain ⟨address, rfl⟩ := Option.isSome_iff_exists.mp h
  simp [cells, ofCells?]

/-- Symbols that have addresses are recovered from their printed table. -/
theorem ofText?_text (hnames : ∀ name ∈ table.names, IsWord name)
    (haddresses : ∀ symbol ∈ table.symbols, symbol.address.isSome) :
    ofText? table.text = some table.indexed := by
  rw [ofText?, cells_text hnames]
  exact Text.mapM_map_eq_some fun entry hentry =>
    ofCells?_cells (haddresses _ (Keyed.mem_of_mem_indexed hentry))

end SymbolTable

/-! ### Literals and pools -/

namespace LiteralTable

variable {table other : LiteralTable}

/-- The cells in the row of a literal: index, text and address. -/
def cells (entry : Nat × Literal) : List String :=
  [entry.1.repr, entry.2.text, (entry.2.address.getD 0).repr]

/-- The literal in a row, with its index. -/
def ofCells? : List String → Option (Nat × Literal)
  | [index, text, address] => do
    return (← Text.number? index.toList, ⟨text, ← Text.number? address.toList⟩)
  | _ => none

/-- The literals in a printed table, with their indices. -/
def ofText? (text : String) : Option (List (Nat × Literal)) :=
  (Text.cells text).mapM ofCells?

/-- The first index of a pool in a row. -/
def poolOfCells? : List String → Option Nat
  | [first] => Text.number? first.toList
  | _ => none

/-- The pools in a printed table. -/
def poolsOfText? (text : String) : Option (List Nat) :=
  (Text.cells text).mapM poolOfCells?

theorem text_eq (table : LiteralTable) : table.text = Text.ofCells (table.indexed.map cells) := by
  rw [text, Text.ofCells, List.map_map]
  rfl

/-- The printed table is split into its cells. -/
theorem cells_text (htexts : ∀ text ∈ table.texts, IsWord text) :
    Text.cells table.text = table.indexed.map cells := by
  rw [text_eq]
  refine Text.cells_ofCells (List.forall_mem_map.mpr fun entry hentry => ?_)
  have htext : entry.2.text ∈ table.texts :=
    List.mem_map_of_mem (Keyed.mem_of_mem_indexed hentry)
  refine ⟨List.cons_ne_nil _ _, ?_⟩
  simp only [cells, List.forall_mem_cons]
  exact ⟨Text.isCell_repr _, (htexts _ htext).2, Text.isCell_repr _,
    fun _ hmem => absurd hmem List.not_mem_nil⟩

theorem ofCells?_cells {entry : Nat × Literal} (h : entry.2.address.isSome) :
    ofCells? (cells entry) = some entry := by
  obtain ⟨index, text, address⟩ := entry
  obtain ⟨address, rfl⟩ := Option.isSome_iff_exists.mp h
  simp [cells, ofCells?]

/-- Literals that have addresses are recovered from their printed table. -/
theorem ofText?_text (htexts : ∀ text ∈ table.texts, IsWord text)
    (haddresses : ∀ literal ∈ table.literals, literal.address.isSome) :
    ofText? table.text = some table.indexed := by
  rw [ofText?, cells_text htexts]
  exact Text.mapM_map_eq_some fun entry hentry =>
    ofCells?_cells (haddresses _ (Keyed.mem_of_mem_indexed hentry))

/-- The printed pools are split into one cell a line. -/
theorem cells_poolText (table : LiteralTable) :
    Text.cells table.poolText = table.pools.map fun first => [first.repr] := by
  have htext : table.poolText = Text.ofCells (table.pools.map fun first => [first.repr]) := by
    rw [poolText, Text.ofCells, List.map_map]
    rfl
  rw [htext]
  exact Text.cells_ofCells (List.forall_mem_map.mpr fun first _ =>
    ⟨List.cons_ne_nil _ _, List.forall_mem_singleton.mpr (Text.isCell_repr first)⟩)

/-- Pools are recovered from their printed table. -/
theorem poolsOfText?_poolText (table : LiteralTable) :
    poolsOfText? table.poolText = some table.pools := by
  rw [poolsOfText?, cells_poolText]
  exact Text.mapM_map_eq_some fun first _ => by simp [poolOfCells?]

/-- Tables with no open pool are the same when their rows and pools are.  Where the open pool begins
is not printed, so it has to be known to be empty. -/
private theorem eq_of_indexed_eq (hmark : table.mark = table.size)
    (hmark' : other.mark = other.size)
    (hindexed : table.indexed = other.indexed) (hpools : table.pools = other.pools) :
    table = other := by
  have hliterals : table.literals = other.literals := Keyed.indexed_injective hindexed
  have hmarks : table.mark = other.mark := by
    rw [hmark, hmark', size, size, hliterals]
  cases table
  cases other
  simp only [mk.injEq]
  exact ⟨hliterals, hpools, hmarks⟩

end LiteralTable

/-! ### Programs -/

/-- Without errors no pool is left open. -/
theorem mark_of_not_hasErrors {text : String} (h : (assemble text).hasErrors = false) :
    (assemble text).context.literals.mark = (assemble text).context.literals.size := by
  have hopen := (accounted_assemble text).2.resolve_left (hasErrors_assemble.mp h).1
  exact Nat.le_antisymm (orderly_assemble text).mark_le (Nat.sub_eq_zero_iff_le.mp hopen)

/-- An address that is there is printed as it is. -/
theorem repr_getD_eq_iff {address? : Option Nat} (h : address?.isSome) (address : Nat) :
    (address?.getD 0).repr = address.repr ↔ address? = some address := by
  obtain ⟨actual, rfl⟩ := Option.isSome_iff_exists.mp h
  constructor
  · intro hrepr
    simpa using congrArg (fun text => Text.number? text.toList) hrepr
  · intro haddress
    rw [haddress, Option.getD_some]

/-- A program whose printed tables say all that is in its tables. -/
structure Tabulated (text : String) : Prop where
  /-- The printed tables are split into the cells of the entries. -/
  cells : Text.cells (assemble text).context.symbols.text =
      (assemble text).context.symbols.indexed.map SymbolTable.cells ∧
    Text.cells (assemble text).context.literals.text =
      (assemble text).context.literals.indexed.map LiteralTable.cells ∧
    Text.cells (assemble text).context.literals.poolText =
      (assemble text).context.literals.pools.map fun first => [first.repr]
  /-- Indices count from 1. -/
  indices : (assemble text).context.symbols.indexed.map Prod.fst =
      List.range' 1 (assemble text).context.symbols.size ∧
    (assemble text).context.literals.indexed.map Prod.fst =
      List.range' 1 (assemble text).context.literals.size
  symbols : SymbolTable.ofText? (assemble text).context.symbols.text =
    some (assemble text).context.symbols.indexed
  literals : LiteralTable.ofText? (assemble text).context.literals.text =
    some (assemble text).context.literals.indexed
  pools : LiteralTable.poolsOfText? (assemble text).context.literals.poolText =
    some (assemble text).context.literals.pools
  /-- The address that is printed in a row is the address of the entry, be it 0 or another. -/
  addresses : ∀ address : Nat,
    (∀ symbol ∈ (assemble text).context.symbols.symbols,
      (symbol.address.getD 0).repr = address.repr ↔ symbol.address = some address) ∧
    ∀ literal ∈ (assemble text).context.literals.literals,
      (literal.address.getD 0).repr = address.repr ↔ literal.address = some address
  /-- No other program without errors has tables that are printed in the same way. -/
  determined : ∀ other : String, (assemble other).hasErrors = false →
    (assemble other).context.symbols.text = (assemble text).context.symbols.text →
    (assemble other).context.literals.text = (assemble text).context.literals.text →
    (assemble other).context.literals.poolText = (assemble text).context.literals.poolText →
    (assemble other).context.symbols = (assemble text).context.symbols ∧
      (assemble other).context.literals = (assemble text).context.literals

section

variable {text : String}

private theorem ofText?_symbols_assemble (h : (assemble text).hasErrors = false) :
    SymbolTable.ofText? (assemble text).context.symbols.text =
      some (assemble text).context.symbols.indexed :=
  SymbolTable.ofText?_text (holdsWords_assemble text).names fun _ => isSome_address_symbol h

private theorem ofText?_literals_assemble (h : (assemble text).hasErrors = false) :
    LiteralTable.ofText? (assemble text).context.literals.text =
      some (assemble text).context.literals.indexed :=
  LiteralTable.ofText?_text (holdsWords_assemble text).texts fun _ => isSome_address_literal h

/-- The printed tables of a program without errors say all that is in its tables. -/
theorem tabulated_of_not_hasErrors (h : (assemble text).hasErrors = false) : Tabulated text where
  cells := ⟨SymbolTable.cells_text (holdsWords_assemble text).names,
    LiteralTable.cells_text (holdsWords_assemble text).texts, LiteralTable.cells_poolText _⟩
  indices := ⟨Keyed.map_fst_indexed _, Keyed.map_fst_indexed _⟩
  symbols := ofText?_symbols_assemble h
  literals := ofText?_literals_assemble h
  pools := LiteralTable.poolsOfText?_poolText _
  addresses address :=
    ⟨fun _ hmem => repr_getD_eq_iff (isSome_address_symbol h hmem) address,
      fun _ hmem => repr_getD_eq_iff (isSome_address_literal h hmem) address⟩
  determined other hother hsymbols hliterals hpools := by
    have hindexed := ofText?_symbols_assemble hother
    rw [hsymbols, ofText?_symbols_assemble h, Option.some.injEq] at hindexed
    have hindexed' := ofText?_literals_assemble hother
    rw [hliterals, ofText?_literals_assemble h, Option.some.injEq] at hindexed'
    have hpools' := LiteralTable.poolsOfText?_poolText (assemble other).context.literals
    rw [hpools, LiteralTable.poolsOfText?_poolText, Option.some.injEq] at hpools'
    exact ⟨SymbolTable.eq_of_indexed_eq hindexed.symm,
      LiteralTable.eq_of_indexed_eq (mark_of_not_hasErrors hother) (mark_of_not_hasErrors h)
        hindexed'.symm hpools'.symm⟩

end

/-- A program with a symbol at address 0 and a pool of one literal behind it. -/
def lowProgram : String :=
  "X DC 5\n ADD AREG ='1'\n END\n"

/-- The symbol is printed at address 0, and stands there. -/
theorem tabulated_lowProgram :
    ((assemble lowProgram).context.symbols.text = "1 X 0 1\n" ∧
      (assemble lowProgram).context.literals.text = "1 ='1' 2\n" ∧
      (assemble lowProgram).context.literals.poolText = "1\n") ∧
    (assemble lowProgram).hasErrors = false ∧ Tabulated lowProgram :=
  have herrors : (assemble lowProgram).hasErrors = false := by decide +kernel
  ⟨by decide +kernel, herrors, tabulated_of_not_hasErrors herrors⟩

end Assembler
