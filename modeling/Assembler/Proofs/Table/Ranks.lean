import Assembler.Proofs.Table.Symbol
import Mathlib.Data.List.Induction

/-!
# Symbols over any calls

A symbol table is used through three calls: a name is bound, a name is mentioned, or a length is
set.  Binding a name mentions it, setting a length does not.  After any calls on an empty table the
rows stand in the order in which their names were mentioned first, whatever was done in between, so
that the index of a row is the rank of its name and both ways to a row agree.

What a call does to the rows that are there is a change of each row by itself.  The address of a
name is that of the last call that bound it.

## Main definitions

* `SymbolTable.Call`, `SymbolTable.call`, `SymbolTable.answer?` : calls, the table after a call, and
  the index that it answers.
* `SymbolTable.ofCalls` : the table after calls on an empty one.
* `SymbolTable.mentioned`, `SymbolTable.lastAddress?` : what calls come to, without a table.
* `SymbolTable.Ranked` : what holds after calls.

## Main results

* `SymbolTable.names_ofCalls` : rows stand in the order of first mentions.
* `SymbolTable.get?_call` : a call changes each row by itself.
* `SymbolTable.ranked_ofCalls` : what holds after any calls.
-/

namespace Assembler.SymbolTable

/-- A call on a symbol table. -/
inductive Call
  | define (name : String) (address : Nat)
  | reference (name : String)
  | setLength (name : String) (length : Nat)
  deriving DecidableEq, Repr

namespace Call

/-- The name that a call mentions. -/
def mention? : Call → Option String
  | define name _ => some name
  | reference name => some name
  | setLength _ _ => none

/-- The address to which a call binds a name. -/
def address? (name : String) : Call → Option Nat
  | define other address => if other = name then some address else none
  | reference _ => none
  | setLength _ _ => none

/-- What a call makes of a row. -/
def change : Call → Symbol → Symbol
  | define name address, symbol =>
    if symbol.name = name then { symbol with address := some address } else symbol
  | reference _, symbol => symbol
  | setLength name length, symbol =>
    if symbol.name = name then { symbol with length := length } else symbol

end Call

/-- The table after a call. -/
def call (table : SymbolTable) : Call → SymbolTable
  | .define name address => (table.define name address).2
  | .reference name => (table.reference name).2
  | .setLength name length => table.setLength name length

/-- The index that a call answers, if it answers one. -/
def answer? (table : SymbolTable) : Call → Option Nat
  | .define name address => some (table.define name address).1.index
  | .reference name => some (table.reference name).1
  | .setLength _ _ => none

/-- The table after calls in order, the first of them on an empty table. -/
def ofCalls (calls : List Call) : SymbolTable :=
  calls.foldl call {}

/-- The names that calls mention, in the order in which they are mentioned first. -/
def mentioned (calls : List Call) : List String :=
  (calls.filterMap Call.mention?).eraseDups

/-- The address of the last call that binds a name. -/
def lastAddress? (calls : List Call) (name : String) : Option Nat :=
  calls.reverse.findSome? (Call.address? name)

/-- What holds of the table after calls, and of every call on it. -/
structure Ranked (calls : List Call) : Prop where
  names_nodup : (ofCalls calls).names.Nodup
  /-- A row is found under the name that it carries and under no other. -/
  find?_iff : ∀ name symbol, (ofCalls calls).find? name = some symbol ↔
    symbol ∈ (ofCalls calls).symbols ∧ symbol.name = name
  names_eq : (ofCalls calls).names = mentioned calls
  get?_isSome_iff : ∀ index, ((ofCalls calls).get? index).isSome ↔
    1 ≤ index ∧ index ≤ (ofCalls calls).size
  /-- The index that is answered for a name is the rank of the name, counted from 1. -/
  answer?_eq : ∀ next, (ofCalls calls).answer? next =
    next.mention?.map fun name => (mentioned (calls ++ [next])).idxOf name + 1
  /-- An index that was answered is answered again, and it denotes the row of its name. -/
  index_stays : ∀ before next after name, calls = before ++ next :: after →
    next.mention? = some name → ∃ index symbol, (ofCalls before).answer? next = some index ∧
      (∀ later, later.mention? = some name → (ofCalls calls).answer? later = some index) ∧
      (ofCalls calls).get? index = some symbol ∧ (ofCalls calls).find? name = some symbol ∧
      symbol.name = name
  address_eq : ∀ name, (ofCalls calls).addressOf? name = lastAddress? calls name
  /-- Binding a name answers the address that the name had. -/
  previous_eq : ∀ name address,
    ((ofCalls calls).define name address).1.previous = lastAddress? calls name
  /-- Only binding a name changes its address. -/
  address_stays : ∀ next name, next.address? name = none →
    ((ofCalls calls).call next).addressOf? name = (ofCalls calls).addressOf? name
  /-- An address that is known is never lost. -/
  address_kept : ∀ next name, ((ofCalls calls).addressOf? name).isSome →
    (((ofCalls calls).call next).addressOf? name).isSome
  /-- Of the rows that are there a call changes the row of its name, and nothing but what the call
  is about. -/
  row_call : ∀ next index symbol, (ofCalls calls).get? index = some symbol →
    ((ofCalls calls).call next).get? index = some (next.change symbol)
  /-- Setting a length adds no row. -/
  names_setLength : ∀ name length,
    ((ofCalls calls).call (.setLength name length)).names = (ofCalls calls).names

/-! ### One call -/

theorem ofCalls_concat (calls : List Call) (next : Call) :
    ofCalls (calls ++ [next]) = (ofCalls calls).call next := by
  rw [ofCalls, List.foldl_concat, ofCalls]

/-- A call enters the name that it mentions. -/
theorem names_call (table : SymbolTable) (next : Call) :
    (table.call next).names =
      next.mention?.elim table.names fun name => (table.enter name).names := by
  cases next with
  | define name address => exact names_define table name address
  | reference name => rfl
  | setLength name length => exact names_setLength table name length

/-- The index that is answered is that of the name that is mentioned. -/
theorem answer?_eq_index (table : SymbolTable) (next : Call) :
    table.answer? next = next.mention?.map (table.call next).index := by
  have hindex : ∀ name, next.mention? = some name →
      (table.call next).index name = table.index name := by
    intro name hname
    rw [index, names_call, hname, Option.elim_some]
    exact index_enter_self table name
  cases next with
  | define name address => exact congrArg some (hindex name rfl).symm
  | reference name => exact congrArg some (hindex name rfl).symm
  | setLength name length => rfl

private theorem names_prefix_call (table : SymbolTable) (next : Call) :
    table.names <+: (table.call next).names := by
  rw [names_call]
  cases next.mention? with
  | none => exact List.prefix_rfl
  | some name => exact names_prefix_enter table name

private theorem nodup_names_call {table : SymbolTable} (h : table.names.Nodup) (next : Call) :
    (table.call next).names.Nodup := by
  rw [names_call]
  cases next.mention? with
  | none => exact h
  | some name => exact nodup_names_enter h name

private theorem mem_names_call {table : SymbolTable} {next : Call} {name : String}
    (h : next.mention? = some name) : name ∈ (table.call next).names := by
  rw [names_call, h]
  exact mem_names_enter_self table name

/-- The address of a name is changed by binding it and by nothing else. -/
theorem addressOf?_call (table : SymbolTable) (next : Call) (name : String) :
    (table.call next).addressOf? name = (next.address? name).or (table.addressOf? name) := by
  cases next with
  | define other address =>
    simp only [call, addressOf?_define, Call.address?, eq_comm (a := other)]
    split_ifs <;> rfl
  | reference other => exact addressOf?_enter table other name
  | setLength other length => exact addressOf?_setLength table other name length

/-- A call changes each of the rows that are there by itself. -/
theorem get?_call {table : SymbolTable} {position : Nat} {symbol : Symbol} (next : Call)
    (h : table.get? position = some symbol) :
    (table.call next).get? position = some (next.change symbol) := by
  cases next with
  | define name address =>
    change ((table.enter name).update name _).get? position = _
    rw [get?_update, get?_enter name h]
    rfl
  | reference name => exact get?_enter name h
  | setLength name length =>
    change (table.update name _).get? position = _
    rw [get?_update, h]
    rfl

/-! ### Any calls -/

private theorem mentioned_concat (calls : List Call) (next : Call) :
    mentioned (calls ++ [next]) =
      next.mention?.elim (mentioned calls) (Keyed.addKey (mentioned calls)) := by
  rw [mentioned, List.filterMap_append]
  cases hname : next.mention? with
  | none => simp [mentioned, hname]
  | some name =>
    rw [List.filterMap_cons, hname]
    exact Keyed.eraseDups_concat _ name

/-- Rows stand in the order in which their names were mentioned first. -/
theorem names_ofCalls (calls : List Call) : (ofCalls calls).names = mentioned calls := by
  induction calls using List.reverseRecOn with
  | nil => rfl
  | append_singleton calls next ih =>
    simp only [ofCalls_concat, names_call, mentioned_concat, names_enter_eq_addKey, ih]

private theorem nodup_names_ofCalls (calls : List Call) : (ofCalls calls).names.Nodup := by
  induction calls using List.reverseRecOn with
  | nil => exact List.nodup_nil
  | append_singleton calls next ih =>
    rw [ofCalls_concat]
    exact nodup_names_call ih next

private theorem lastAddress?_concat (calls : List Call) (next : Call) (name : String) :
    lastAddress? (calls ++ [next]) name =
      (next.address? name).or (lastAddress? calls name) := by
  rw [lastAddress?, List.reverse_append, List.findSome?_append]
  simp [lastAddress?]

/-- The address of a name is that of the last call that bound it. -/
theorem addressOf?_ofCalls (calls : List Call) (name : String) :
    (ofCalls calls).addressOf? name = lastAddress? calls name := by
  induction calls using List.reverseRecOn with
  | nil => rfl
  | append_singleton calls next ih =>
    rw [ofCalls_concat, addressOf?_call, lastAddress?_concat, ih]

private theorem names_prefix_ofCalls (before after : List Call) :
    (ofCalls before).names <+: (ofCalls (before ++ after)).names := by
  induction after using List.reverseRecOn with
  | nil => rw [List.append_nil]
  | append_singleton after next ih =>
    rw [← List.append_assoc, ofCalls_concat]
    exact ih.trans (names_prefix_call _ next)

/-! ### The laws -/

/-- A row is found under the name that it carries and under no other. -/
private theorem find?_eq_some_iff {table : SymbolTable} (h : table.names.Nodup) {name : String}
    {symbol : Symbol} :
    table.find? name = some symbol ↔ symbol ∈ table.symbols ∧ symbol.name = name := by
  constructor
  · intro hfind
    exact ⟨List.mem_of_find?_eq_some hfind, name_of_find? hfind⟩
  · rintro ⟨hmem, rfl⟩
    exact find?_name_of_mem h hmem

/-- The index that is answered for a name that is in the table. -/
private theorem answer?_of_mem {table : SymbolTable} {next : Call} {name : String}
    (hmention : next.mention? = some name) (hmem : name ∈ table.names) :
    table.answer? next = some (table.index name) := by
  rw [answer?_eq_index, hmention, Option.map_some,
    index_eq_of_prefix (names_prefix_call table next) hmem]

/-- An index that was answered for a name denotes the row of that name from then on. -/
theorem index_stays_ofCalls (before after : List Call) {next : Call} {name : String}
    (hmention : next.mention? = some name) :
    ∃ position symbol, (ofCalls before).answer? next = some position ∧
      (∀ later, later.mention? = some name →
        (ofCalls (before ++ next :: after)).answer? later = some position) ∧
      (ofCalls (before ++ next :: after)).get? position = some symbol ∧
      (ofCalls (before ++ next :: after)).find? name = some symbol ∧ symbol.name = name := by
  have hcalls : before ++ next :: after = (before ++ [next]) ++ after := by simp
  have hprefix : ((ofCalls before).call next).names <+:
      (ofCalls (before ++ next :: after)).names := by
    rw [hcalls, ← ofCalls_concat]
    exact names_prefix_ofCalls (before ++ [next]) after
  have hentered : name ∈ ((ofCalls before).call next).names := mem_names_call hmention
  have hmem : name ∈ (ofCalls (before ++ next :: after)).names := hprefix.subset hentered
  obtain ⟨symbol, hsymbol⟩ := Option.isSome_iff_exists.mp (find?_isSome_iff.mpr hmem)
  refine ⟨(ofCalls (before ++ next :: after)).index name, symbol, ?_, ?_, ?_, hsymbol,
    name_of_find? hsymbol⟩
  · rw [answer?_eq_index, hmention, Option.map_some, index_eq_of_prefix hprefix hentered]
  · intro later hlater
    exact answer?_of_mem hlater hmem
  · rw [get?_index, hsymbol]

/-- What holds of symbols and their indices after any calls. -/
theorem ranked_ofCalls (calls : List Call) : Ranked calls where
  names_nodup := nodup_names_ofCalls calls
  find?_iff := fun _ _ => find?_eq_some_iff (nodup_names_ofCalls calls)
  names_eq := names_ofCalls calls
  get?_isSome_iff := get?_isSome_iff (ofCalls calls)
  answer?_eq := by
    intro next
    rw [answer?_eq_index, ← ofCalls_concat, ← names_ofCalls]
    rfl
  index_stays := by
    rintro before next after name rfl hmention
    exact index_stays_ofCalls before after hmention
  address_eq := addressOf?_ofCalls calls
  previous_eq := fun name _ => addressOf?_ofCalls calls name
  address_stays := by
    intro next name hnext
    rw [addressOf?_call, hnext, Option.none_or]
  address_kept := by
    intro next name hknown
    rw [addressOf?_call, Option.isSome_or, hknown, Bool.or_true]
  row_call := fun next _ _ hget => get?_call next hget
  names_setLength := fun name length => names_call (ofCalls calls) (.setLength name length)

end Assembler.SymbolTable
