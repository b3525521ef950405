import Assembler.Assembly.Encoding
import Assembler.Proofs.Assembly.Outcome
import Assembler.Proofs.Table.Literal
import Assembler.Proofs.Table.Renaming

/-!
# What statements and records are blamed for

A statement that cannot be executed is blamed for one of a few faults.  Each of them that cites a
text cites an operand of the statement, or the name in front of one.  A record that cannot be
encoded is blamed for a value that does not fit, or for a row of the tables that has no address.

## Main definitions

* `Operands.Blamed`, `Statement.Blamed` : the faults of operands and of statements.
* `Context.Unencoded` : the faults of records.

## Main results

* `Context.blamed_of_executeStatement` : a statement that cannot be executed has one of its faults.
* `Context.exists_locationOverflow_of_close` : a program can only be closed badly for lack of room.
* `Context.unencoded_of_encode` : a record that cannot be encoded has one of its faults.
-/

namespace Assembler

/-- The faults that the operands of a statement may be blamed for. -/
inductive Operands.Blamed (operands : Operands) : Fault → Prop
  | badRegister {operand : String} (hoperand : operand ∈ operands.toList) :
      Blamed operands (.malformed (.badRegister operand))
  | constantTooLarge {operand : String} (hoperand : operand ∈ operands.toList) :
      Blamed operands (.malformed (.constantTooLarge operand))
  | badMemoryOperand {operand : String} (hoperand : operand ∈ operands.toList) :
      Blamed operands (.malformed (.badMemoryOperand operand))
  | badOperand {mnemonic : Mnemonic} {operand : String} (hoperand : operand ∈ operands.toList) :
      Blamed operands (.badOperand mnemonic operand)

/-- The faults that a statement may be blamed for. -/
inductive Statement.Blamed (statement : Statement) : Fault → Prop
  | noRoom (location words : Nat) : Blamed statement (.locationOverflow location words)
  | lateStart : Blamed statement (.malformed .lateStart)
  | equWithoutLabel : Blamed statement (.malformed .equWithoutLabel)
  | missingOperand : Blamed statement (.malformed (.missingOperand statement.mnemonic))
  | operands {fault : Fault} (hfault : statement.operands.Blamed fault) : Blamed statement fault
  | undefinedSymbol {name : String} (hname : Text.isName name.toList = true) :
      Blamed statement (.undefinedSymbol name)

/-- The faults that a record may be blamed for. -/
inductive Context.Unencoded (context : Context) : Fault → Prop
  | overflow (field : FieldOverflow) : Unencoded context (.overflow field)
  | danglingSymbol (index : Nat) : Unencoded context (.danglingSymbol index)
  | undefinedSymbol {name : String} (hname : name ∈ context.symbols.names) :
      Unencoded context (.undefinedSymbol name)
  | danglingLiteral (index : Nat) : Unencoded context (.danglingLiteral index)
  | unplacedLiteral {text : String} (htext : text ∈ context.literals.texts) :
      Unencoded context (.unplacedLiteral text)

/-! ### Operands -/

namespace Operands

variable {operands : Operands} {operand : String} {fault : Fault}

theorem mem_toList_of_first? (h : operands.first? = some operand) : operand ∈ operands.toList := by
  cases operands with
  | none => cases h
  | one =>
    cases h
    exact List.mem_cons_self
  | two =>
    cases h
    exact List.mem_cons_self

theorem mem_toList_of_memory? (h : operands.memory? = some operand) :
    operand ∈ operands.toList := by
  cases operands with
  | none => cases h
  | one =>
    cases h
    exact List.mem_cons_self
  | two first =>
    cases h
    exact List.mem_cons_of_mem first List.mem_cons_self

theorem blamed_of_registerField {opcode : Opcode}
    (h : operands.registerField opcode = .error fault) : operands.Blamed fault := by
  cases operands with
  | none => cases h
  | one => cases h
  | two register =>
    rw [registerField] at h
    split at h
    · cases h
    · cases h
      exact .badRegister List.mem_cons_self

theorem blamed_of_constantValue (hoperand : operand ∈ operands.toList)
    (h : constantValue operand = .error fault) : operands.Blamed fault := by
  dsimp only [constantValue] at h
  split at h
  · cases h
  · cases h
    exact .badOperand hoperand

theorem blamed_of_referOption {context : Context}
    (h : context.referOption operands.memory? = .error fault) : operands.Blamed fault := by
  cases hmemory : operands.memory? with
  | none =>
    rw [hmemory] at h
    cases h
  | some operand =>
    have hoperand := mem_toList_of_memory? hmemory
    rw [hmemory, Context.referOption, Context.refer] at h
    split at h
    · cases h
    · split at h
      · split at h
        · cases h
        · cases h
          exact .constantTooLarge hoperand
      · split at h
        · cases h
        · cases h
          exact .badMemoryOperand hoperand

end Operands

/-! ### Parts of statements -/

namespace Statement

variable {statement : Statement} {operand : String} {fault : Fault}

private theorem blamed_of_firstOperand (h : statement.firstOperand = .error fault) :
    statement.Blamed fault := by
  rw [firstOperand] at h
  split at h
  · cases h
  · cases h
    exact .missingOperand

private theorem blamed_of_advance {location words : Nat}
    (h : Location.advance location words = .error fault) : statement.Blamed fault := by
  rw [(Location.advance_eq_error_iff.mp h).1]
  exact .noRoom location words

private theorem blamed_of_reserve {location : Nat}
    (h : Location.reserve location statement.operands.first? = .error fault) :
    statement.Blamed fault := by
  rw [Location.reserve] at h
  cases hwords : Location.reservation statement.operands.first? with
  | error other =>
    rw [hwords] at h
    cases h
    unfold Location.reservation at hwords
    split at hwords
    · cases hwords
    · rename_i hfirst
      split at hwords
      · cases hwords
      · cases hwords
        exact .operands (.badOperand (Operands.mem_toList_of_first? hfirst))
  | ok words =>
    rw [hwords] at h
    dsimp only at h
    split at h
    · cases h
    · rename_i hfirst
      cases h
      exact .operands (.badOperand (Operands.mem_toList_of_first? hfirst))
    · rename_i hadvance hfirst
      cases h
      exact blamed_of_advance hadvance

private theorem blamed_of_evaluate {directive : Directive} {symbols : SymbolTable}
    (hoperand : operand ∈ statement.operands.toList)
    (h : Expression.evaluate directive operand symbols = .error fault) :
    statement.Blamed fault := by
  rw [Expression.evaluate] at h
  split at h
  · split at h
    · cases h
    · cases h
      exact .operands (.badOperand hoperand)
  · split at h
    · rename_i hexpression
      rw [Expression.value] at h
      split at h
      · cases h
        exact .undefinedSymbol (Expression.symbol_of_ofText? hexpression).1
      · split at h
        · cases h
        · split at h
          · cases h
          · cases h
            exact .operands (.badOperand hoperand)
    · cases h
      exact .operands (.badOperand hoperand)

end Statement

namespace Context

/-! ### Placing literals -/

section

variable {context : Context} {fault : Fault}

/-- Where literals cannot be placed there is no room for them. -/
theorem exists_locationOverflow_of_placeWith (skipped : LiteralTable → Nat)
    (h : context.placeWith (fun table => table.placeAfter (skipped table)) = .error fault) :
    ∃ location words, fault = .locationOverflow location words := by
  rw [placeWith] at h
  cases hplace : context.literals.placeAfter (skipped context.literals) context.location with
  | error other =>
    rw [hplace] at h
    cases h
    rw [LiteralTable.placeAfter] at hplace
    split_ifs at hplace
    cases hplace
    exact ⟨_, _, rfl⟩
  | ok placed =>
    rw [hplace] at h
    cases hadvance : Location.advance context.location placed.1 with
    | error other =>
      simp only [hadvance, Except.map] at h
      cases h
      exact ⟨_, _, (Location.advance_eq_error_iff.mp hadvance).1⟩
    | ok next => simp [hadvance, Except.map] at h

private theorem exists_locationOverflow_of_placePool (h : context.placePool = .error fault) :
    ∃ location words, fault = .locationOverflow location words :=
  exists_locationOverflow_of_placeWith LiteralTable.mark h

theorem exists_locationOverflow_of_close (h : context.close = .error fault) :
    ∃ location words, fault = .locationOverflow location words := by
  rw [close] at h
  split at h
  · rename_i hplace
    cases h
    exact exists_locationOverflow_of_placePool hplace
  · exact exists_locationOverflow_of_placeWith (fun _ => 0) h

end

/-! ### Statements -/

section

variable {bound : Context} {statement : Statement} {fault : Fault}

private theorem blamed_of_placing {word : Directive} {place : Context → Except Fault Context}
    (hplacing : (Mnemonic.directive word).placing? = some place)
    (h : (bound.placing word place).2 = .error fault) : statement.Blamed fault := by
  rw [placing] at h
  split at h
  · rename_i hplace
    cases h
    obtain ⟨location, words, rfl⟩ : ∃ location words, fault = .locationOverflow location words := by
      cases word with
      | ltorg =>
        cases hplacing
        exact exists_locationOverflow_of_placePool hplace
      | finish =>
        cases hplacing
        exact exists_locationOverflow_of_close hplace
      | start => cases hplacing
      | origin => cases hplacing
      | equ => cases hplacing
    exact .noRoom location words
  · cases h

private theorem blamed_of_instruction {opcode : Opcode}
    (h : (bound.instruction opcode statement.operands).2 = .error fault) :
    statement.Blamed fault := by
  rw [instruction] at h
  split at h
  · rename_i hadvance
    cases h
    exact Statement.blamed_of_advance hadvance
  · dsimp only at h
    split at h
    · rename_i hregister
      cases h
      exact .operands (Operands.blamed_of_registerField hregister)
    · split at h
      · rename_i hrefer
        cases h
        exact .operands (Operands.blamed_of_referOption hrefer)
      · cases h

private theorem blamed_of_declareConstant (h : (bound.declareConstant statement).2 = .error fault) :
    statement.Blamed fault := by
  rw [declareConstant] at h
  split at h
  · rename_i hadvance
    cases h
    exact Statement.blamed_of_advance hadvance
  · dsimp only at h
    split at h
    · rename_i hoperand
      cases h
      exact Statement.blamed_of_firstOperand hoperand
    · rename_i operand hoperand
      cases hvalue : constantValue operand with
      | error bad =>
        rw [hvalue] at h
        cases h
        exact .operands (Operands.blamed_of_constantValue
          (Operands.mem_toList_of_first? (firstOperand_eq_ok_iff.mp hoperand)) hvalue)
      | ok value =>
        rw [hvalue] at h
        cases h

private theorem blamed_of_declareStorage (h : (bound.declareStorage statement).2 = .error fault) :
    statement.Blamed fault := by
  rw [declareStorage] at h
  split at h
  · rename_i hreserve
    cases h
    exact Statement.blamed_of_reserve hreserve
  · cases h

private theorem blamed_of_origin (h : (bound.origin statement).2 = .error fault) :
    statement.Blamed fault := by
  rw [origin] at h
  split at h
  · rename_i hoperand
    cases h
    exact Statement.blamed_of_firstOperand hoperand
  · rename_i operand hoperand
    have hmem := Operands.mem_toList_of_first? (firstOperand_eq_ok_iff.mp hoperand)
    split at h
    · rename_i hmove
      cases h
      rw [moveTo] at hmove
      split at hmove
      · rename_i hvalue
        cases hmove
        exact Statement.blamed_of_evaluate hmem hvalue
      · cases hmove
    · cases h

private theorem blamed_of_equate (h : (bound.equate statement).result = .error fault) :
    statement.Blamed fault := by
  rw [equate] at h
  split at h
  · cases h
    exact .equWithoutLabel
  · split at h
    · rename_i hoperand
      cases h
      exact Statement.blamed_of_firstOperand hoperand
    · rename_i operand hoperand
      have hmem := Operands.mem_toList_of_first? (firstOperand_eq_ok_iff.mp hoperand)
      split at h
      · rename_i hvalue
        cases h
        exact Statement.blamed_of_evaluate hmem hvalue
      · cases h

private theorem error_of_afterLabel {context : Context} {label? : Option String}
    {perform : Context → Context × Except Fault Record}
    (h : (context.afterLabel label? perform).result = .error fault) :
    (perform (context.bindLabel label? context.location).2).2 = .error fault := by
  cases hresult : (perform (context.bindLabel label? context.location).2).2 with
  | ok record => simp [afterLabel, hresult, Except.map] at h
  | error other => simpa [afterLabel, hresult, Except.map] using h

/-- A statement that cannot be executed has a fault of its own. -/
theorem blamed_of_executeStatement
    (h : (bound.executeStatement statement).result = .error fault) :
    statement.Blamed fault := by
  rw [executeStatement] at h
  cases hmnemonic : statement.mnemonic with
  | operation opcode =>
    rw [hmnemonic] at h
    exact blamed_of_instruction (error_of_afterLabel h)
  | declaration word =>
    rw [hmnemonic] at h
    cases word with
    | constant => exact blamed_of_declareConstant (error_of_afterLabel h)
    | storage => exact blamed_of_declareStorage (error_of_afterLabel h)
  | directive word =>
    rw [hmnemonic] at h
    cases word with
    | start =>
      cases error_of_afterLabel h
      exact .lateStart
    | finish => exact blamed_of_placing rfl (error_of_afterLabel h)
    | ltorg => exact blamed_of_placing rfl (error_of_afterLabel h)
    | origin => exact blamed_of_origin (error_of_afterLabel h)
    | equ => exact blamed_of_equate h

end

end Context

/-! ### Records -/

namespace Context

variable {context : Context} {fault : Fault}

/-- An operand that stands for nothing is a row without an address, or no row at all. -/
private theorem unencoded_of_resolve {reference : Reference}
    (h : context.resolve reference = .error fault) : context.Unencoded fault := by
  cases reference with
  | symbol index =>
    rw [resolve] at h
    split at h
    · cases h
      exact .danglingSymbol index
    · rename_i hrow
      split at h
      · cases h
        exact .undefinedSymbol (SymbolTable.name_mem_of_get? hrow)
      · cases h
  | literal index =>
    rw [resolve] at h
    split at h
    · cases h
      exact .danglingLiteral index
    · rename_i hrow
      split at h
      · cases h
        exact .unplacedLiteral (LiteralTable.text_mem_of_get? hrow)
      · cases h
  | constant value => cases h
  | none => cases h

private theorem unencoded_of_noted {made : Except FieldOverflow Word}
    (h : (made.map some).mapError Fault.overflow = .error fault) : context.Unencoded fault := by
  cases made with
  | ok word => cases h
  | error field =>
    cases h
    exact .overflow field

/-- A record that cannot be encoded has a fault of its own. -/
theorem unencoded_of_encode {record : Record} (h : context.encode record = .error fault) :
    context.Unencoded fault := by
  cases record with
  | directive word operand => cases h
  | declaration word value =>
    cases word with
    | storage => cases h
    | constant => exact unencoded_of_noted h
  | instruction opcode register reference =>
    rw [encode] at h
    split at h
    · rename_i hresolve
      cases h
      exact unencoded_of_resolve hresolve
    · exact unencoded_of_noted h

end Context

end Assembler
