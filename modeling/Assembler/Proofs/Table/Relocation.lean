import Assembler.Location.Counter
import Assembler.Location.Expression
import Assembler.Proofs.Table.Literal
import Assembler.Proofs.Table.Symbol

/-!
# Tables of a program that is moved

When a program is moved by a distance, every address in its tables grows by that distance and
nothing else changes: names, lengths, texts, indices and pools stay.  What is done to the tables
does not notice, except that the larger addresses leave less room, and that a distance may be taken
away from a larger address where it could not be from the smaller one.

## Main definitions

* `SymbolTable.relocate`, `LiteralTable.relocate` : tables with all addresses moved.
* `EitherFails` : results that are related unless one of them is a fault.

## Main results

* `SymbolTable.define_relocate`, `SymbolTable.addressOf?_relocate` : symbols.
* `LiteralTable.intern_relocate`, `LiteralTable.placeAfter_relocate` : literals.
* `Expression.evaluate_relocate` : expressions with a symbol.
-/

namespace Assembler

/-- Of two results one is a fault, or both are values that are related. -/
def EitherFails {α β : Type} (related : α → β → Prop) (first : Except Fault α)
    (second : Except Fault β) : Prop :=
  (∃ fault, first = .error fault) ∨ (∃ fault, second = .error fault) ∨
    ∃ value moved, first = .ok value ∧ second = .ok moved ∧ related value moved

private theorem EitherFails.of_ok {α β : Type} {related : α → β → Prop} {first : Except Fault α}
    {second : Except Fault β} {value : α} {moved : β} (hfirst : first = .ok value)
    (hsecond : second = .ok moved) (h : related value moved) : EitherFails related first second :=
  .inr (.inr ⟨value, moved, hfirst, hsecond, h⟩)

private theorem EitherFails.of_error {α β : Type} {related : α → β → Prop} {fault : Fault}
    {second : Except Fault β} : EitherFails related (.error fault) second :=
  .inl ⟨fault, rfl⟩

private theorem EitherFails.of_error_right {α β : Type} {related : α → β → Prop}
    {first : Except Fault α} {fault : Fault} : EitherFails related first (.error fault) :=
  .inr (.inl ⟨fault, rfl⟩)

/-- What holds of every fault, and of values that are related, holds of both results. -/
@[elab_as_elim]
theorem EitherFails.elim {α β : Type} {related : α → β → Prop}
    {motive : Except Fault α → Except Fault β → Prop} {first : Except Fault α}
    {second : Except Fault β} (h : EitherFails related first second)
    (hfirst : ∀ fault second, motive (.error fault) second)
    (hsecond : ∀ fault first, motive first (.error fault))
    (hok : ∀ value moved, related value moved → motive (.ok value) (.ok moved)) :
    motive first second := by
  obtain ⟨fault, rfl⟩ | ⟨fault, rfl⟩ | ⟨value, moved, rfl, rfl, hrelated⟩ := h
  · exact hfirst fault second
  · exact hsecond fault first
  · exact hok value moved hrelated

/-! ### Symbols -/

/-- A symbol with its address moved. -/
def Symbol.relocate (distance : Nat) (symbol : Symbol) : Symbol :=
  { symbol with address := symbol.address.map (· + distance) }

namespace SymbolTable

/-- A symbol table with all addresses moved. -/
def relocate (distance : Nat) (table : SymbolTable) : SymbolTable :=
  ⟨table.symbols.map (Symbol.relocate distance)⟩

variable (distance : Nat) (table : SymbolTable) (name : String)

@[simp] theorem names_relocate : (table.relocate distance).names = table.names := by
  rw [names, relocate, List.map_map]
  rfl

@[simp] theorem index_relocate : (table.relocate distance).index name = table.index name := by
  rw [index, names_relocate, index]

theorem get?_relocate (index : Nat) :
    (table.relocate distance).get? index =
      (table.get? index).map (Symbol.relocate distance) := by
  rw [get?_eq_row?, get?_eq_row?]
  exact Keyed.row?_map (Symbol.relocate distance) table.symbols index

private theorem find?_relocate :
    (table.relocate distance).find? name = (table.find? name).map (Symbol.relocate distance) :=
  Keyed.find?_map (g := Symbol.relocate distance) Function.injective_id Symbol.name Symbol.name
    (fun _ => rfl) table.symbols name

theorem addressOf?_relocate :
    (table.relocate distance).addressOf? name =
      (table.addressOf? name).map (· + distance) := by
  rw [addressOf?, find?_relocate, addressOf?]
  cases table.find? name <;> rfl

theorem enter_relocate :
    (table.relocate distance).enter name = (table.enter name).relocate distance := by
  have hsymbols : ((table.relocate distance).enter name).symbols =
      (table.enter name).symbols.map (Symbol.relocate distance) := by
    rw [symbols_enter, symbols_enter]
    exact Keyed.enter_map (g := Symbol.relocate distance) Function.injective_id Symbol.name
      Symbol.name (fun _ => rfl) table.symbols ⟨name, none, 1⟩
  exact congrArg mk hsymbols

private theorem update_relocate {change change' : Symbol → Symbol}
    (h : ∀ symbol, change' (symbol.relocate distance) = (change symbol).relocate distance) :
    (table.relocate distance).update name change' =
      (table.update name change).relocate distance :=
  congrArg mk (Keyed.update_map (g := Symbol.relocate distance) Function.injective_id Symbol.name
    Symbol.name (fun _ => rfl) table.symbols name h)

theorem define_relocate (address : Nat) :
    ((table.relocate distance).define name (address + distance)).2 =
      (table.define name address).2.relocate distance := by
  rw [define, define, enter_relocate]
  exact update_relocate distance _ name fun _ => rfl

theorem setLength_relocate (length : Nat) :
    (table.relocate distance).setLength name length =
      (table.setLength name length).relocate distance :=
  update_relocate distance table name fun _ => rfl

end SymbolTable

/-! ### Literals -/

/-- A literal with its address moved. -/
def Literal.relocate (distance : Nat) (literal : Literal) : Literal :=
  { literal with address := literal.address.map (· + distance) }

private theorem Literal.isNone_address_relocate (distance : Nat) (literal : Literal) :
    (literal.relocate distance).address.isNone = literal.address.isNone :=
  Option.isNone_map

private theorem Literal.placeFrom_relocate (distance next : Nat) (literals : List Literal) :
    placeFrom (next + distance) (literals.map (relocate distance)) =
      (placeFrom next literals).map (relocate distance) := by
  induction literals generalizing next with
  | nil => rfl
  | cons literal rest ih =>
    obtain ⟨text, address⟩ := literal
    cases address with
    | some address => exact congrArg _ (ih next)
    | none =>
      have hrest := ih (next + 1)
      rw [Nat.add_right_comm] at hrest
      exact congrArg _ hrest

namespace LiteralTable

/-- A literal table with all addresses moved. -/
def relocate (distance : Nat) (table : LiteralTable) : LiteralTable :=
  { table with literals := table.literals.map (Literal.relocate distance) }

variable (distance : Nat) (table : LiteralTable)

@[simp] theorem texts_relocate : (table.relocate distance).texts = table.texts := by
  rw [texts, relocate, List.map_map]
  rfl

theorem get?_relocate (index : Nat) :
    (table.relocate distance).get? index =
      (table.get? index).map (Literal.relocate distance) := by
  rw [get?_eq_row?, get?_eq_row?]
  exact Keyed.row?_map (Literal.relocate distance) table.literals index

theorem intern_relocate (text : String) :
    (table.relocate distance).intern text =
      ((table.intern text).1, (table.intern text).2.relocate distance) := by
  rw [intern, intern, index, index, texts_relocate]
  split_ifs
  · rfl
  · simp only [relocate, List.map_append]
    rfl

private theorem drop_relocate (skipped : Nat) :
    (table.relocate distance).literals.drop skipped =
      (table.literals.drop skipped).map (Literal.relocate distance) :=
  List.map_drop.symm

private theorem waiting_relocate (skipped : Nat) :
    (table.relocate distance).waiting skipped = table.waiting skipped := by
  rw [waiting, drop_relocate, List.countP_map]
  exact congrArg (List.countP · _) (funext (Literal.isNone_address_relocate distance))

private theorem firstWaiting?_relocate (skipped : Nat) :
    (table.relocate distance).firstWaiting? skipped = table.firstWaiting? skipped := by
  rw [firstWaiting?, drop_relocate, List.findIdx?_map]
  exact congrArg (fun waits => Option.map _ (List.findIdx? waits _))
    (funext (Literal.isNone_address_relocate distance))

/-- Literals are placed at moved addresses, unless there is no room for them there. -/
theorem placeAfter_relocate (skipped address : Nat) :
    EitherFails (fun placed moved => moved = (placed.1, placed.2.relocate distance))
      (table.placeAfter skipped address)
      ((table.relocate distance).placeAfter skipped (address + distance)) := by
  rw [placeAfter, placeAfter, waiting_relocate, firstWaiting?_relocate, drop_relocate,
    Literal.placeFrom_relocate]
  by_cases hroom : address + distance + table.waiting skipped ≤ maxAddress
  · rw [if_pos hroom, if_pos (by omega)]
    refine .of_ok rfl rfl ?_
    simp only [relocate, size, List.map_append, List.map_take, List.length_map]
  · rw [if_neg hroom]
    exact .of_error_right

end LiteralTable

/-! ### Addresses -/

/-- The counter moves on from a moved address, unless there is no room there. -/
theorem Location.advance_relocate (distance location words : Nat) :
    EitherFails (fun next moved => moved = next + distance) (advance location words)
      (advance (location + distance) words) := by
  rw [advance, advance]
  by_cases hroom : location + distance + words ≤ maxAddress
  · rw [if_pos hroom, if_pos (by omega)]
    exact .of_ok rfl rfl (Nat.add_right_comm ..)
  · rw [if_neg hroom]
    exact .of_error_right

/-- A distance from a moved address, where there is one from both. -/
private theorem Sign.move?_relocate (sign : Sign) (distance base offset : Nat) :
    sign.move? base offset = none ∨ sign.move? (base + distance) offset = none ∨
      ∃ address, sign.move? base offset = some address ∧
        sign.move? (base + distance) offset = some (address + distance) := by
  cases sign with
  | plus =>
    rw [move?, move?]
    by_cases hroom : base + distance + offset ≤ maxAddress
    · refine .inr (.inr ⟨base + offset, if_pos (by omega), ?_⟩)
      rw [if_pos hroom, Nat.add_right_comm]
    · exact .inr (.inl (if_neg hroom))
  | minus =>
    rw [move?, move?]
    by_cases hbase : offset ≤ base
    · refine .inr (.inr ⟨base - offset, if_pos hbase, ?_⟩)
      rw [if_pos (by omega), Nat.sub_add_comm hbase]
    · exact .inl (if_neg hbase)

/-- An expression that is no numeral moves with the symbol in it. -/
theorem Expression.evaluate_relocate (distance : Nat) (directive : Directive) {text : String}
    (symbols : SymbolTable) (h : Text.isNumeral text.toList = false) :
    EitherFails (fun value moved => moved = value + distance) (evaluate directive text symbols)
      (evaluate directive text (symbols.relocate distance)) := by
  rw [evaluate, evaluate, h]
  simp only [Bool.false_eq_true, if_false]
  cases ofText? text with
  | none => exact .of_error
  | some expression =>
    dsimp only [value]
    rw [SymbolTable.addressOf?_relocate]
    cases symbols.addressOf? expression.symbol with
    | none => exact .of_error
    | some base =>
      dsimp only [Option.map_some]
      cases expression.offset with
      | none => exact .of_ok rfl rfl rfl
      | some offset =>
        obtain ⟨sign, digits⟩ := offset
        dsimp only
        cases Text.readNumeral? maxAddress digits.toList with
        | none => exact .of_error
        | some offset =>
          dsimp only [Option.bind_some]
          obtain hnone | hnone | ⟨address, haddress, hmoved⟩ :=
            sign.move?_relocate distance base offset
          · rw [hnone]
            exact .of_error
          · rw [hnone]
            exact .of_error_right
          · rw [haddress, hmoved]
            exact .of_ok rfl rfl rfl

end Assembler
