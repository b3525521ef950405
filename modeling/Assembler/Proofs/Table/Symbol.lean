import Assembler.Proofs.Table.Keyed
import Assembler.Table.Symbol

/-!
# Rows of the symbol table

Records keep bare indices of symbols, and the rest of the assembler asks for symbols by name.
The two ways to a row agree, and they go on agreeing while the table grows: names are only added
at the end, so the index of a name in the table is its index for good.

The table is a list of rows that are kept under their names, and what holds of such rows holds of
symbols.  Each operation is described by what it does to the row of every name.

## Main results

* `SymbolTable.get?_index`, `SymbolTable.find?_name_of_mem` : the row at the index of a name is the
  row of that name, and every row is that of its name.
* `SymbolTable.index_eq_of_prefix` : a name keeps its index while the table grows.
* `SymbolTable.find?_enter`, `SymbolTable.find?_update` : the rows after a name is mentioned, and
  after a row is changed.
* `SymbolTable.addressOf?_define` : binding a name changes the address of that name only.
-/

namespace Assembler

namespace SymbolTable

/-! ### Symbols as keyed rows -/

theorem get?_eq_row? (table : SymbolTable) (position : Nat) :
    table.get? position = Keyed.row? table.symbols position := by
  cases position <;> rfl

theorem symbols_enter (table : SymbolTable) (name : String) :
    (table.enter name).symbols = Keyed.enter Symbol.name table.symbols ⟨name, none, 1⟩ :=
  apply_ite symbols _ _ _

/-- A name has a row exactly when it is in the table. -/
theorem find?_isSome_iff {table : SymbolTable} {name : String} :
    (table.find? name).isSome ↔ name ∈ table.names :=
  Keyed.isSome_find?_iff

/-- The row of a name carries that name. -/
theorem name_of_find? {table : SymbolTable} {name : String} {symbol : Symbol}
    (h : table.find? name = some symbol) : symbol.name = name :=
  Keyed.key_of_find? h

/-- Where no name has two rows, every row is the row of its name. -/
theorem find?_name_of_mem {table : SymbolTable} (hdistinct : table.names.Nodup) {symbol : Symbol}
    (hmem : symbol ∈ table.symbols) : table.find? symbol.name = some symbol :=
  Keyed.find?_key_of_mem hdistinct hmem

/-- The row at the index of a name is the row of that name. -/
theorem get?_index (table : SymbolTable) (name : String) :
    table.get? (table.index name) = table.find? name :=
  Keyed.row?_index Symbol.name table.symbols name

/-- Rows are counted from 1. -/
theorem get?_isSome_iff (table : SymbolTable) (position : Nat) :
    (table.get? position).isSome ↔ 1 ≤ position ∧ position ≤ table.size := by
  rw [get?_eq_row?]
  exact Keyed.isSome_row?_iff table.symbols position

theorem name_mem_of_get? {table : SymbolTable} {position : Nat} {symbol : Symbol}
    (h : table.get? position = some symbol) : symbol.name ∈ table.names := by
  rw [get?_eq_row?] at h
  exact List.mem_map_of_mem (Keyed.mem_of_row? h)

/-- A name that is in the table keeps its index while names are added behind. -/
theorem index_eq_of_prefix {old new : SymbolTable} {name : String}
    (hnames : old.names <+: new.names) (hmem : name ∈ old.names) :
    new.index name = old.index name :=
  Keyed.index_eq_of_prefix hnames hmem

/-! ### Growth -/

/-- The names with one more among them. -/
theorem names_enter_eq_addKey (table : SymbolTable) (name : String) :
    (table.enter name).names = Keyed.addKey table.names name :=
  names_enter table name

/-- Mentioning a name adds it behind the others, if at all. -/
theorem names_prefix_enter (table : SymbolTable) (name : String) :
    table.names <+: (table.enter name).names := by
  rw [names_enter_eq_addKey]
  exact Keyed.prefix_addKey table.names name

/-- A name that is mentioned is in the table from then on. -/
theorem mem_names_enter_self (table : SymbolTable) (name : String) :
    name ∈ (table.enter name).names := by
  rw [names_enter_eq_addKey]
  exact Keyed.mem_addKey_self table.names name

/-- The only name that mentioning a name can add is that name. -/
theorem eq_of_mem_names_enter {table : SymbolTable} {name other : String}
    (hmem : other ∈ (table.enter name).names) (hnew : other ∉ table.names) : other = name := by
  rw [names_enter_eq_addKey] at hmem
  exact Keyed.eq_of_mem_addKey hmem hnew

/-- A name that is mentioned gets no second row. -/
theorem nodup_names_enter {table : SymbolTable} (h : table.names.Nodup) (name : String) :
    (table.enter name).names.Nodup := by
  rw [names_enter_eq_addKey]
  exact Keyed.nodup_addKey h name

/-- The index that mentioning a name reports is its index in the new table. -/
theorem index_enter_self (table : SymbolTable) (name : String) :
    (table.enter name).index name = table.index name := by
  rw [index, names_enter_eq_addKey]
  exact Keyed.index_addKey_self table.names name

/-- A name that is mentioned keeps the index that was reported while names are added behind. -/
theorem index_of_entered {old new : SymbolTable} {name : String}
    (h : (old.enter name).names <+: new.names) :
    name ∈ new.names ∧ old.index name = new.index name := by
  rw [names_enter_eq_addKey] at h
  exact Keyed.index_of_added h

/-! ### Rows after an operation -/

/-- Mentioning a name keeps the rows that are there. -/
theorem get?_enter {table : SymbolTable} {position : Nat} {symbol : Symbol} (name : String)
    (h : table.get? position = some symbol) : (table.enter name).get? position = some symbol := by
  rw [get?_eq_row?] at h ⊢
  rw [symbols_enter]
  exact Keyed.row?_enter _ h

theorem get?_update (table : SymbolTable) (name : String) (change : Symbol → Symbol)
    (position : Nat) :
    (table.update name change).get? position =
      (table.get? position).map fun symbol =>
        if symbol.name = name then change symbol else symbol := by
  rw [get?_eq_row?, get?_eq_row?]
  exact Keyed.row?_update Symbol.name table.symbols name change position

/-- After a name is mentioned it has a row, which is new and empty if it had none. -/
theorem find?_enter (table : SymbolTable) (name other : String) :
    (table.enter name).find? other =
      if other = name then some ((table.find? name).getD ⟨name, none, 1⟩)
      else table.find? other := by
  rw [find?, symbols_enter]
  exact Keyed.find?_enter Symbol.name table.symbols ⟨name, none, 1⟩ other

/-- A change that keeps the name of a row is seen in that row only. -/
theorem find?_update (table : SymbolTable) (name other : String) {change : Symbol → Symbol}
    (hchange : ∀ symbol, (change symbol).name = symbol.name) :
    (table.update name change).find? other =
      if other = name then (table.find? other).map change else table.find? other :=
  Keyed.find?_update table.symbols name other hchange

/-- Mentioning a name changes no address. -/
theorem addressOf?_enter (table : SymbolTable) (name other : String) :
    (table.enter name).addressOf? other = table.addressOf? other := by
  rw [addressOf?, addressOf?, find?_enter]
  split_ifs with h
  · subst h
    cases table.find? other <;> rfl
  · rfl

/-- Binding a name gives that name its address and changes no other. -/
theorem addressOf?_define (table : SymbolTable) (name other : String) (address : Nat) :
    (table.define name address).2.addressOf? other =
      if other = name then some address else table.addressOf? other := by
  rw [define, addressOf?, find?_update, find?_enter]
  · split_ifs with h
    · rfl
    · rfl
  · intro symbol
    rfl

/-- Setting a length changes no address. -/
theorem addressOf?_setLength (table : SymbolTable) (name other : String) (length : Nat) :
    (table.setLength name length).addressOf? other = table.addressOf? other := by
  rw [setLength, addressOf?, addressOf?, find?_update]
  · split_ifs
    · cases table.find? other <;> rfl
    · rfl
  · intro symbol
    rfl

/-! ### The length of a label, where there is one -/

theorem names_elim_setLength (table : SymbolTable) (label? : Option String) (length : Nat) :
    (label?.elim table fun label => table.setLength label length).names = table.names := by
  cases label? with
  | none => rfl
  | some label => exact names_setLength table label length

theorem addressOf?_elim_setLength (table : SymbolTable) (label? : Option String)
    (other : String) (length : Nat) :
    (label?.elim table fun label => table.setLength label length).addressOf? other =
      table.addressOf? other := by
  cases label? with
  | none => rfl
  | some label => exact addressOf?_setLength table label other length

end SymbolTable

end Assembler
