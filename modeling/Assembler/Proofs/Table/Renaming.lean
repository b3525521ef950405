import Assembler.Location.Expression
import Assembler.Proofs.Table.Symbol
import Assembler.Proofs.Text.Name
import Mathlib.Data.List.DropRight
import Mathlib.Logic.Function.Basic

/-!
# Other names for symbols

The symbols of a program may be given other names, as long as different symbols keep different names
and no name is a mnemonic.  A symbol table then holds the same rows under the other names, with the
same indices, and an expression has the same value.  A fault that tells a name tells the other one.

A renaming is extended to all texts: what is no name stays as it is.  The extension is injective
too, so nothing has to be known about the texts that tables hold.

## Main definitions

* `Renaming`, `Renaming.word` : other names for symbols.
* `Renaming.expression` : expressions with another symbol.
* `SymbolTable.rename`, `Fault.rename` : tables and faults under other names.

## Main results

* `SymbolTable.enter_rename`, `SymbolTable.define_rename` : what is done to a table.
* `Expression.evaluate_rename` : the values of expressions.
-/

namespace Assembler

/-- The names that a symbol may have. -/
def SymbolName : Type :=
  { text : String // Text.isName text.toList = true }

/-- Other names for symbols, none of which is a mnemonic in any letter case.  The old names may be
mnemonics, because a memory operand may be spelled like one. -/
structure Renaming where
  name : SymbolName → SymbolName
  injective : Function.Injective name
  not_mnemonic : ∀ old, Mnemonic.ofToken? (name old).val = none

namespace Renaming

variable (f : Renaming) {text : String}

/-- The word that takes the place of a word: only a name is replaced. -/
def word (text : String) : String :=
  if h : Text.isName text.toList = true then (f.name ⟨text, h⟩).val else text

private theorem word_of_isName (h : Text.isName text.toList = true) :
    f.word text = (f.name ⟨text, h⟩).val :=
  dif_pos h

theorem word_of_not_isName (h : ¬Text.isName text.toList = true) : f.word text = text :=
  dif_neg h

@[simp] theorem isName_word (text : String) :
    Text.isName (f.word text).toList = Text.isName text.toList := by
  by_cases h : Text.isName text.toList = true
  · rw [f.word_of_isName h, h]
    exact (f.name ⟨text, h⟩).property
  · rw [f.word_of_not_isName h]

theorem ofToken?_word (h : Text.isName text.toList = true) :
    Mnemonic.ofToken? (f.word text) = none := by
  rw [f.word_of_isName h]
  exact f.not_mnemonic _

private theorem word_injective : Function.Injective f.word := by
  intro first second h
  have hname : Text.isName first.toList = Text.isName second.toList := by
    rw [← f.isName_word first, h, f.isName_word]
  by_cases hfirst : Text.isName first.toList = true
  · have hsecond : Text.isName second.toList = true := by rwa [← hname]
    rw [f.word_of_isName hfirst, f.word_of_isName hsecond] at h
    exact congrArg Subtype.val (f.injective (Subtype.ext h))
  · have hsecond : ¬Text.isName second.toList = true := by rwa [← hname]
    rwa [f.word_of_not_isName hfirst, f.word_of_not_isName hsecond] at h

/-- An expression with another symbol.  What follows the symbol stays, and so does a text that is no
expression. -/
def expression (text : String) : String :=
  match Expression.ofText? text with
  | some expression =>
    f.word expression.symbol ++ String.ofList (text.toList.dropWhile Text.continuesName)
  | none => text

end Renaming

/-! ### Symbol tables -/

/-- A symbol under another name. -/
def Symbol.rename (f : Renaming) (symbol : Symbol) : Symbol :=
  { symbol with name := f.word symbol.name }

namespace SymbolTable

/-- A table in which every symbol has another name. -/
def rename (f : Renaming) (table : SymbolTable) : SymbolTable :=
  ⟨table.symbols.map (Symbol.rename f)⟩

variable (f : Renaming) (table : SymbolTable) (name : String)

private theorem names_rename : (table.rename f).names = table.names.map f.word := by
  rw [names, rename, List.map_map, names, List.map_map]
  rfl

@[simp] theorem index_rename : (table.rename f).index (f.word name) = table.index name := by
  rw [index, names_rename]
  exact Keyed.index_map f.word_injective table.names name

theorem get?_rename (index : Nat) :
    (table.rename f).get? index = (table.get? index).map (Symbol.rename f) := by
  rw [get?_eq_row?, get?_eq_row?]
  exact Keyed.row?_map (Symbol.rename f) table.symbols index

private theorem find?_rename :
    (table.rename f).find? (f.word name) = (table.find? name).map (Symbol.rename f) :=
  Keyed.find?_map f.word_injective Symbol.name Symbol.name (fun _ => rfl) table.symbols name

@[simp] theorem addressOf?_rename :
    (table.rename f).addressOf? (f.word name) = table.addressOf? name := by
  rw [addressOf?, find?_rename, addressOf?]
  cases table.find? name <;> rfl

theorem enter_rename :
    (table.rename f).enter (f.word name) = (table.enter name).rename f := by
  have hsymbols : ((table.rename f).enter (f.word name)).symbols =
      (table.enter name).symbols.map (Symbol.rename f) := by
    rw [symbols_enter, symbols_enter]
    exact Keyed.enter_map f.word_injective Symbol.name Symbol.name (fun _ => rfl) table.symbols
      ⟨name, none, 1⟩
  exact congrArg mk hsymbols

private theorem update_rename {change : Symbol → Symbol}
    (h : ∀ symbol, change (symbol.rename f) = (change symbol).rename f) :
    (table.rename f).update (f.word name) change = (table.update name change).rename f :=
  congrArg mk (Keyed.update_map f.word_injective Symbol.name Symbol.name (fun _ => rfl)
    table.symbols name h)

theorem define_rename (address : Nat) :
    (table.rename f).define (f.word name) address =
      ((table.define name address).1, (table.define name address).2.rename f) := by
  rw [define, index_rename, addressOf?_rename, enter_rename, update_rename]
  · rfl
  · intro symbol
    rfl

theorem setLength_rename (length : Nat) :
    (table.rename f).setLength (f.word name) length = (table.setLength name length).rename f :=
  update_rename f table name fun _ => rfl

end SymbolTable

/-! ### Faults -/

/-- Whether the operand of a mnemonic is an expression, in which a symbol may stand. -/
def Mnemonic.takesExpression : Mnemonic → Bool
  | directive .origin => true
  | directive .equ => true
  | _ => false

/-- A fault with the other name of each symbol that it tells. -/
def Fault.rename (f : Renaming) : Fault → Fault
  | undefinedSymbol name => undefinedSymbol (f.word name)
  | redefinition name previous => redefinition (f.word name) previous
  | badOperand mnemonic operand =>
    badOperand mnemonic (if mnemonic.takesExpression then f.expression operand else operand)
  | fault => fault

@[simp] theorem Fault.kind_rename (f : Renaming) (fault : Fault) :
    (fault.rename f).kind = fault.kind := by
  cases fault <;> rfl

/-! ### Expressions -/

namespace Expression

variable (f : Renaming) {text : String} {expression : Expression}

/-- An expression with another symbol. -/
def rename (f : Renaming) (expression : Expression) : Expression :=
  { expression with symbol := f.word expression.symbol }

/-- An expression begins with the name of its symbol. -/
theorem symbol_of_ofText? (h : ofText? text = some expression) :
    Text.isName expression.symbol.toList = true ∧
      expression.symbol.toList = text.toList.takeWhile Text.continuesName := by
  unfold ofText? at h
  dsimp only at h
  split_ifs at h with hname
  split at h
  · cases h
    exact ⟨by rwa [String.toList_ofList], String.toList_ofList⟩
  · split_ifs at h
    · cases h
      exact ⟨by rwa [String.toList_ofList], String.toList_ofList⟩
    · cases h
      exact ⟨by rwa [String.toList_ofList], String.toList_ofList⟩

/-- An expression reads the same with another name in front. -/
private theorem ofText?_of_isName {name : List Char} (hname : Text.isName name = true)
    (h : ofText? text = some expression) :
    ofText? (String.ofList (name ++ text.toList.dropWhile Text.continuesName)) =
      some { expression with symbol := String.ofList name } := by
  have hname' := (symbol_of_ofText? h).1
  rw [(symbol_of_ofText? h).2] at hname'
  have hall := Text.continuesName_of_isName hname
  have hnone : (text.toList.dropWhile Text.continuesName).takeWhile Text.continuesName = [] := by
    rw [List.takeWhile_eq_nil_iff]
    exact List.dropWhile_get_zero_not _ _
  unfold ofText? at h ⊢
  rw [String.toList_ofList, List.takeWhile_append_of_pos hall, List.dropWhile_append_of_pos hall,
    hnone, List.dropWhile_idempotent, List.append_nil]
  dsimp only at h ⊢
  rw [if_pos hname'] at h
  rw [if_pos hname]
  generalize text.toList.dropWhile Text.continuesName = rest at h ⊢
  cases rest with
  | nil =>
    cases h
    rfl
  | cons c digits =>
    dsimp only at h ⊢
    split_ifs at h ⊢ <;> cases h <;> rfl

/-- Reading an expression with another symbol. -/
theorem ofText?_rename (text : String) :
    ofText? (f.expression text) = (ofText? text).map (rename f) := by
  cases h : ofText? text with
  | none =>
    rw [Renaming.expression, h]
    exact h
  | some expression =>
    have hname : Text.isName (f.word expression.symbol).toList = true := by
      rw [f.isName_word]
      exact (symbol_of_ofText? h).1
    have hread := ofText?_of_isName hname h
    rw [String.ofList_append, String.ofList_toList] at hread
    rw [Renaming.expression, h]
    exact hread

/-- A numeral is no expression. -/
theorem isNumeral_of_ofText? (h : ofText? text = some expression) :
    Text.isNumeral text.toList = false := by
  obtain ⟨hname, hsymbol⟩ := symbol_of_ofText? h
  cases htext : text.toList with
  | nil => rfl
  | cons c rest =>
    rw [htext, List.takeWhile_cons] at hsymbol
    rw [hsymbol] at hname
    split_ifs at hname
    · rw [Text.isName, Bool.and_eq_true] at hname
      exact Text.isNumeral_of_beginsName hname.1 rest
    · cases hname

private theorem isNumeral_expression (text : String) :
    Text.isNumeral (f.expression text).toList = Text.isNumeral text.toList := by
  cases h : ofText? text with
  | none => rw [Renaming.expression, h]
  | some expression =>
    have hrenamed : ofText? (f.expression text) = some (expression.rename f) := by
      rw [ofText?_rename, h, Option.map_some]
    rw [isNumeral_of_ofText? h, isNumeral_of_ofText? hrenamed]

private theorem value_rename (expression : Expression) (symbols : SymbolTable) (unusable : Fault) :
    (expression.rename f).value (symbols.rename f) (unusable.rename f) =
      (expression.value symbols unusable).mapError (Fault.rename f) := by
  obtain ⟨symbol, offset⟩ := expression
  simp only [value, rename, SymbolTable.addressOf?_rename]
  cases symbols.addressOf? symbol with
  | none => rfl
  | some base =>
    cases offset with
    | none => rfl
    | some distance =>
      dsimp only
      cases (Text.readNumeral? maxAddress distance.2.toList).bind (distance.1.move? base) <;> rfl

/-- An expression has the same value under the other names. -/
theorem evaluate_rename {directive : Directive}
    (h : (Mnemonic.directive directive).takesExpression = true) (text : String)
    (symbols : SymbolTable) :
    evaluate directive (f.expression text) (symbols.rename f) =
      (evaluate directive text symbols).mapError (Fault.rename f) := by
  have hunusable : Fault.badOperand (.directive directive) (f.expression text) =
      (Fault.badOperand (.directive directive) text).rename f := by
    rw [Fault.rename, if_pos h]
  rw [evaluate, evaluate, isNumeral_expression, ofText?_rename, hunusable]
  split_ifs with hnumeral
  · -- a numeral stands for itself
    have hsame : f.expression text = text := by
      cases hread : ofText? text with
      | none => rw [Renaming.expression, hread]
      | some expression => simp [isNumeral_of_ofText? hread] at hnumeral
    rw [hsame]
    cases Text.readNumeral? maxAddress text.toList <;> rfl
  · cases ofText? text with
    | none => rfl
    | some expression => exact value_rename f expression symbols _

end Expression

end Assembler
