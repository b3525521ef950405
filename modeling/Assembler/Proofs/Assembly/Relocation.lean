import Assembler.Proofs.Assembly.Parallel
import Assembler.Proofs.Table.Relocation

/-!
# Moving a program

A program whose START asks for another address is the same program at another place, as long as no
ORIGIN and no EQU in it names an address by a numeral.  Every address that is known, every record
and the location counter move by the same distance.  This is a correspondence of programs that holds
unless one of the two fails: at the larger addresses there is less room, and at the smaller ones
less can be taken away.

## Main definitions

* `Context.relocate`, `Record.relocate` : what is known about a moved program.
* `fixesAddress` : lines that name an address by a numeral.
* `relocation` : a program at two places.

## Main results

* `lawful_relocation` : tables, operands and expressions at two places.
* `admitsSource_of_fixesAddress` : lines that may stand in a program at two places.
-/

namespace Assembler

/-! ### Moved programs -/

/-- A record with the address that it names moved. -/
def Record.relocate (distance : Nat) : Record → Record
  | directive word operand => directive word (operand.map (· + distance))
  | declaration word operand => declaration word operand
  | instruction opcode register operand => instruction opcode register operand

/-- A record at a moved address. -/
def Located.relocate (distance : Nat) (record : Located Record) : Located Record :=
  ⟨record.line, record.address + distance, record.content.relocate distance⟩

/-- What is known about a program after it was moved. -/
def Context.relocate (distance : Nat) (context : Context) : Context where
  start := context.start + distance
  location := context.location + distance
  symbols := context.symbols.relocate distance
  literals := context.literals.relocate distance

/-- Whether a statement names an address by a numeral. -/
def Statement.fixesAddress (statement : Statement) : Bool :=
  (statement.mnemonic == .directive .origin || statement.mnemonic == .directive .equ) &&
    statement.operands.first?.any fun operand => Text.isNumeral operand.toList

/-- Whether a line names an address by a numeral. -/
def fixesAddress (line : String) : Bool :=
  match SourceLine.ofText line with
  | .ok (.statement statement) => statement.fixesAddress
  | _ => false

/-! ### A program at two places -/

/-- A program at two places.  An expression that is a numeral would stay behind, and a fault of one
of the two excuses the other. -/
def relocation (distance : Nat) : Correspondence where
  Admits text := Text.isNumeral text.toList = false
  Knows context other := other = context.relocate distance
  Address address address' := address' = address + distance
  Reports _ _ := True
  Leaves _ _ record record' := record' = record.relocate distance
  Lenient := True

variable (distance : Nat)

private theorem source_relocation (source : SourceLine) :
    (relocation distance).source source = source := by
  cases source with
  | literal text => rfl
  | statement content =>
    obtain ⟨label?, word | word | opcode, operands⟩ := content
    · cases word <;> simp [Correspondence.source, Correspondence.statement,
        Correspondence.operands, relocation, Operands.mapFirst_id, Mnemonic.takesExpression]
    · simp [Correspondence.source, Correspondence.statement, Correspondence.operands, relocation,
        Mnemonic.takesExpression]
    · simp [Correspondence.source, Correspondence.statement, Correspondence.operands, relocation,
        Operands.mapMemory_id]

/-- The lines of a program are the same at both places. -/
theorem line_relocation (line : String) : (relocation distance).Line line line := by
  refine ⟨rfl, ?_⟩
  rw [funext (source_relocation distance)]
  cases SourceLine.ofText line <;> rfl

/-- Lines that name no address by a numeral may stand in a program at two places. -/
theorem admitsSource_of_fixesAddress {line : String} (h : fixesAddress line = false) :
    (relocation distance).AdmitsSource (SourceLine.ofText line) := by
  intro statement hread hexpression operand hoperand
  rw [fixesAddress, hread] at h
  change statement.fixesAddress = false at h
  rw [Context.firstOperand_eq_ok_iff] at hoperand
  rw [Statement.fixesAddress, hoperand] at h
  obtain ⟨label?, word | word | opcode, operands⟩ := statement
  · cases word with
    | origin => simpa [relocation] using h
    | equ => simpa [relocation] using h
    | start => cases hexpression
    | finish => cases hexpression
    | ltorg => cases hexpression
  · cases hexpression
  · cases hexpression

/-! ### Tables and operands -/

variable {distance}

private theorem EitherFails.results {α β : Type} {related : α → β → Prop} {first : Except Fault α}
    {second : Except Fault β} (h : EitherFails related first second) :
    (relocation distance).Results related first second :=
  h.elim (fun _ _ => .first trivial _ _) (fun _ _ => .second trivial _ _) fun _ _ => .ok

namespace Context

variable (distance) (context : Context)

private theorem bindName_relocate (name : String) (address : Nat) :
    ((context.relocate distance).bindName name (address + distance)).2 =
        (context.bindName name address).2.relocate distance ∧
      ((context.relocate distance).bindName name (address + distance)).1.length =
        (context.bindName name address).1.length := by
  constructor
  · simp only [bindName, relocate, SymbolTable.define_relocate]
  · simp only [bindName, relocate, SymbolTable.define, SymbolTable.addressOf?_relocate]
    cases context.symbols.addressOf? name <;> rfl

/-- Operands refer to the same rows. -/
private theorem refer_relocate (operand : String) :
    (context.relocate distance).refer operand =
      (context.refer operand).map fun referred =>
        (referred.1, referred.2.relocate distance) := by
  simp only [refer, relocate, LiteralTable.intern_relocate, SymbolTable.reference,
    SymbolTable.index_relocate, SymbolTable.enter_relocate]
  split_ifs
  · rfl
  · cases Text.readNumeral? maxAddress operand.toList <;> rfl
  · rfl
  · rfl

end Context

/-- Tables, operands and expressions without numerals are the same at two places. -/
theorem lawful_relocation (distance : Nat) : (relocation distance).Lawful where
  nameless _ := trivial
  location := by
    rintro context _ rfl
    rfl
  moved := by
    rintro context _ address _ rfl rfl
    rfl
  advance := by
    rintro address _ rfl words
    exact (Location.advance_relocate distance address words).results
  bindName := by
    rintro context _ address _ rfl rfl name
    obtain ⟨hbound, hlength⟩ := context.bindName_relocate distance name address
    exact ⟨List.forall₂_iff_zip.mpr ⟨hlength.symm, fun _ => trivial⟩, hbound⟩
  enter := by
    rintro context _ rfl name
    exact congrArg (Context.mk _ _ · _) (SymbolTable.enter_relocate distance context.symbols name)
  setLength := by
    rintro context _ rfl name length
    exact congrArg (Context.mk _ _ · _)
      (SymbolTable.setLength_relocate distance context.symbols name length)
  intern := by
    rintro context _ rfl text
    have hintern := LiteralTable.intern_relocate distance context.literals text
    exact congrArg (fun interned => Context.mk _ _ _ interned.2) hintern
  place := by
    rintro context _ rfl place hplace
    have hplaced (skipped : Nat) :=
      LiteralTable.placeAfter_relocate distance context.literals skipped context.location
    obtain rfl | hall := List.mem_cons.mp hplace
    · refine (hplaced context.literals.mark).results.imp ?_
      rintro placed _ rfl
      exact ⟨rfl, rfl⟩
    · obtain rfl := List.mem_singleton.mp hall
      refine (hplaced 0).results.imp ?_
      rintro placed _ rfl
      exact ⟨rfl, rfl⟩
  evaluate := by
    rintro context _ directive text rfl - hnumeral
    exact (Expression.evaluate_relocate distance directive context.symbols hnumeral).results
  refer := by
    rintro context _ rfl operand
    change (relocation distance).Results _ _ ((context.relocate distance).refer operand)
    rw [context.refer_relocate]
    cases context.refer operand with
    | ok referred => exact .ok ⟨rfl, fun _ _ => rfl⟩
    | error fault => exact .error trivial
  bare _ _ _ := rfl
  directive word h := by
    cases h with
    | none => rfl
    | some haddress => exact congrArg (Record.directive word <| some ·) haddress
  declaration _ _ := rfl
  grows h _ _ := h

end Assembler
