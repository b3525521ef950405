import Assembler.Assembly.Effect
import Mathlib.Data.List.Basic

/-!
# The outcomes of a statement

Executing a source line has a small number of outcomes.  They are listed here once, with the
conditions under which they come about, so that what a line does to a table or to the location
counter is a matter of looking through the list.

## Main definitions

* `Context.Referred` : the outcomes of looking at a memory operand.
* `Context.Performed` : the outcomes of a statement whose label is bound.
* `Context.Executed` : the outcomes of a source line.

## Main results

* `Context.executed_execute` : the effect of every source line is listed.
-/

namespace Assembler

/-- Whether an operand is taken for a literal: it begins like one and goes on. -/
def isLiteralOperand (operand : String) : Bool :=
  beginsLiteral operand && 1 < operand.toList.length

/-- Whether a statement takes a machine word before its operands are looked at. -/
def Mnemonic.takesWord : Mnemonic → Bool
  | directive _ => false
  | declaration .constant => true
  | declaration .storage => false
  | operation _ => true

/-- How a statement places literals, if it does. -/
def Mnemonic.placing? : Mnemonic → Option (Context → Except Fault Context)
  | directive .ltorg => some Context.placePool
  | directive .finish => some Context.close
  | _ => none

namespace Context

/-- What a memory operand refers to, and the context in which it is entered. -/
inductive Referred (context : Context) : Option String → Reference → Context → Prop
  | absent : Referred context none .none context
  | literal {operand : String} (hoperand : isLiteralOperand operand = true) :
      Referred context (some operand) (.literal (context.literals.intern operand).1)
        { context with literals := (context.literals.intern operand).2 }
  | constant {operand : String} {value : Nat}
      (hvalue : Text.readNumeral? maxAddress operand.toList = some value) :
      Referred context (some operand) (.constant value) context
  | symbol {operand : String} (hoperand : Text.isName operand.toList = true) :
      Referred context (some operand) (.symbol (context.symbols.index operand))
        { context with symbols := context.symbols.enter operand }

theorem referred_of_referOption {context after : Context} {operand? : Option String}
    {reference : Reference} (h : context.referOption operand? = .ok (reference, after)) :
    context.Referred operand? reference after := by
  cases operand? with
  | none =>
    obtain ⟨rfl, rfl⟩ : Reference.none = reference ∧ context = after := by
      simpa [referOption] using h
    exact .absent
  | some operand =>
    simp only [referOption, refer] at h
    split at h
    · rename_i hliteral
      obtain ⟨rfl, rfl⟩ := Prod.mk.inj (Except.ok.inj h)
      exact .literal hliteral
    · split at h
      · cases hvalue : Text.readNumeral? maxAddress operand.toList with
        | none => simp [hvalue] at h
        | some value =>
          rw [hvalue] at h
          obtain ⟨rfl, rfl⟩ := Prod.mk.inj (Except.ok.inj h)
          exact .constant hvalue
      · split at h
        · rename_i hname
          obtain ⟨rfl, rfl⟩ := Prod.mk.inj (Except.ok.inj h)
          exact .symbol hname
        · exact absurd h (by simp)

/-- What performing a statement comes to once its label is bound. -/
inductive Performed (bound : Context) (statement : Statement) :
    Context → Except Fault Record → Prop
  /-- Nothing is done, by a statement that neither takes a word nor places literals. -/
  | refused (fault : Fault) (hword : statement.mnemonic.takesWord = false)
      (hplacing : statement.mnemonic.placing? = none) :
      Performed bound statement bound (.error fault)
  /-- There is no room for a word. -/
  | full (fault : Fault) (hword : statement.mnemonic.takesWord = true)
      (hroom : maxAddress < bound.location + 1) :
      Performed bound statement bound (.error fault)
  /-- A word is taken and the operands turn out to be bad. -/
  | spoiled (fault : Fault) (hword : statement.mnemonic.takesWord = true)
      (hroom : bound.location + 1 ≤ maxAddress) :
      Performed bound statement { bound with location := bound.location + 1 } (.error fault)
  | instruction {opcode : Opcode} {register : Nat} {reference : Reference} {after : Context}
      (hmnemonic : statement.mnemonic = .operation opcode)
      (hroom : bound.location + 1 ≤ maxAddress)
      (hregister : statement.operands.registerField opcode = .ok register)
      (hrefer : Referred { bound with location := bound.location + 1 }
        statement.operands.memory? reference after) :
      Performed bound statement after (.ok (.instruction opcode register reference))
  | constant {operand : String} {value : Nat}
      (hmnemonic : statement.mnemonic = .declaration .constant)
      (hroom : bound.location + 1 ≤ maxAddress)
      (hoperand : statement.operands.first? = some operand)
      (hvalue : constantValue operand = .ok value) :
      Performed bound statement { bound with location := bound.location + 1 }
        (.ok (.declaration .constant value))
  | storage {words : Nat} (hmnemonic : statement.mnemonic = .declaration .storage)
      (hwords : Location.reservation statement.operands.first? = .ok words)
      (hroom : bound.location + words ≤ maxAddress) :
      Performed bound statement
        { bound with
          location := bound.location + words
          symbols := statement.label.elim bound.symbols fun label =>
            bound.symbols.setLength label words }
        (.ok (.declaration .storage words))
  | origin {operand : String} {target : Nat}
      (hmnemonic : statement.mnemonic = .directive .origin)
      (hoperand : statement.operands.first? = some operand)
      (hvalue : Expression.evaluate .origin operand bound.symbols = .ok target) :
      Performed bound statement { bound with location := target }
        (.ok (.directive .origin (some target)))
  | placed {word : Directive} {place : Context → Except Fault Context} {placed : Context}
      (hmnemonic : statement.mnemonic = .directive word)
      (hplacing : (Mnemonic.directive word).placing? = some place)
      (hplaced : place bound = .ok placed) :
      Performed bound statement placed (.ok (.directive word none))
  | unplaced {word : Directive} {place : Context → Except Fault Context} {fault : Fault}
      (hmnemonic : statement.mnemonic = .directive word)
      (hplacing : (Mnemonic.directive word).placing? = some place)
      (hfault : place bound = .error fault) :
      Performed bound statement bound (.error fault)

/-- What a source line comes to. -/
inductive Executed (context : Context) : Except Fault SourceLine → Effect → Prop
  | unread (fault : Fault) : Executed context (.error fault) ⟨context, [], .error fault⟩
  | literal (text : String) :
      Executed context (.ok (.literal text))
        ⟨{ context with literals := (context.literals.intern text).2 }, [], .ok none⟩
  | performed {statement : Statement} {after : Context} {result : Except Fault Record}
      (hmnemonic : statement.mnemonic ≠ .directive .equ)
      (hresult : Performed (context.bindLabel statement.label context.location).2 statement
        after result) :
      Executed context (.ok (.statement statement))
        ⟨after, (context.bindLabel statement.label context.location).1, result.map some⟩
  /-- An equation lacks its label or its operand. -/
  | incomplete {statement : Statement} (fault : Fault)
      (hmnemonic : statement.mnemonic = .directive .equ)
      (hparts : statement.label = none ∨ statement.operands.first? = none) :
      Executed context (.ok (.statement statement)) ⟨context, [], .error fault⟩
  /-- The expression of an equation has no value. -/
  | valueless {statement : Statement} {label operand : String} {fault : Fault}
      (hmnemonic : statement.mnemonic = .directive .equ)
      (hlabel : statement.label = some label)
      (hoperand : statement.operands.first? = some operand)
      (hvalue : Expression.evaluate .equ operand context.symbols = .error fault) :
      Executed context (.ok (.statement statement))
        ⟨{ context with symbols := context.symbols.enter label }, [], .error fault⟩
  | equated {statement : Statement} {label operand : String} {value : Nat}
      (hmnemonic : statement.mnemonic = .directive .equ)
      (hlabel : statement.label = some label)
      (hoperand : statement.operands.first? = some operand)
      (hvalue : Expression.evaluate .equ operand context.symbols = .ok value) :
      Executed context (.ok (.statement statement))
        ⟨(context.bindName label value).2, (context.bindName label value).1,
          .ok (some (.directive .equ (some value)))⟩

/-! ### One lemma for each kind of statement -/

theorem firstOperand_eq_ok_iff {statement : Statement} {operand : String} :
    statement.firstOperand = .ok operand ↔ statement.operands.first? = some operand := by
  rw [Statement.firstOperand]
  cases statement.operands.first? <;> simp

private theorem firstOperand_eq_error {statement : Statement} {fault : Fault}
    (h : statement.firstOperand = .error fault) : statement.operands.first? = none := by
  rw [Statement.firstOperand] at h
  cases hfirst : statement.operands.first? with
  | none => rfl
  | some operand => simp [hfirst] at h

variable {bound : Context} {statement : Statement}

private theorem performed_instruction {opcode : Opcode}
    (hmnemonic : statement.mnemonic = .operation opcode) :
    bound.Performed statement (bound.instruction opcode statement.operands).1
      (bound.instruction opcode statement.operands).2 := by
  have hword : statement.mnemonic.takesWord = true := by rw [hmnemonic]; rfl
  rw [Context.instruction]
  cases hadvance : Location.advance bound.location 1 with
  | error fault =>
    exact .full fault hword (Location.advance_eq_error_iff.mp hadvance).2
  | ok next =>
    obtain ⟨rfl, hroom⟩ := Location.advance_eq_ok_iff.mp hadvance
    dsimp only
    cases hregister : statement.operands.registerField opcode with
    | error fault => exact .spoiled fault hword hroom
    | ok register =>
      dsimp only
      cases hrefer : Context.referOption { bound with location := bound.location + 1 }
          statement.operands.memory? with
      | error fault => exact .spoiled fault hword hroom
      | ok pair =>
        exact .instruction hmnemonic hroom hregister (referred_of_referOption hrefer)

private theorem performed_declareConstant
    (hmnemonic : statement.mnemonic = .declaration .constant) :
    bound.Performed statement (bound.declareConstant statement).1
      (bound.declareConstant statement).2 := by
  have hword : statement.mnemonic.takesWord = true := by rw [hmnemonic]; rfl
  rw [declareConstant]
  cases hadvance : Location.advance bound.location 1 with
  | error fault =>
    exact .full fault hword (Location.advance_eq_error_iff.mp hadvance).2
  | ok next =>
    obtain ⟨rfl, hroom⟩ := Location.advance_eq_ok_iff.mp hadvance
    dsimp only
    cases hoperand : statement.firstOperand with
    | error fault => exact .spoiled fault hword hroom
    | ok operand =>
      dsimp only
      cases hvalue : constantValue operand with
      | error fault => exact .spoiled fault hword hroom
      | ok value =>
        exact .constant hmnemonic hroom (firstOperand_eq_ok_iff.mp hoperand) hvalue

private theorem performed_declareStorage (hmnemonic : statement.mnemonic = .declaration .storage) :
    bound.Performed statement (bound.declareStorage statement).1
      (bound.declareStorage statement).2 := by
  have hword : statement.mnemonic.takesWord = false := by rw [hmnemonic]; rfl
  have hplacing : statement.mnemonic.placing? = none := by rw [hmnemonic]; rfl
  rw [declareStorage, Location.reserve]
  cases hwords : Location.reservation statement.operands.first? with
  | error fault => exact .refused fault hword hplacing
  | ok words =>
    dsimp only
    cases hadvance : Location.advance bound.location words with
    | error fault =>
      cases statement.operands.first? with
      | none => exact .refused fault hword hplacing
      | some size => exact .refused _ hword hplacing
    | ok next =>
      obtain ⟨rfl, hroom⟩ := Location.advance_eq_ok_iff.mp hadvance
      have hperformed := Performed.storage hmnemonic hwords hroom
      cases hlabel : statement.label with
      | none => simpa only [hlabel, Option.elim_none] using hperformed
      | some label => simpa only [hlabel, Option.elim_some] using hperformed

private theorem performed_origin (hmnemonic : statement.mnemonic = .directive .origin) :
    bound.Performed statement (bound.origin statement).1 (bound.origin statement).2 := by
  have hword : statement.mnemonic.takesWord = false := by rw [hmnemonic]; rfl
  have hplacing : statement.mnemonic.placing? = none := by rw [hmnemonic]; rfl
  rw [Context.origin]
  cases hoperand : statement.firstOperand with
  | error fault => exact .refused fault hword hplacing
  | ok operand =>
    dsimp only [moveTo]
    cases hvalue : Expression.evaluate .origin operand bound.symbols with
    | error fault => exact .refused fault hword hplacing
    | ok target => exact .origin hmnemonic (firstOperand_eq_ok_iff.mp hoperand) hvalue

private theorem executed_equate {context : Context}
    (hmnemonic : statement.mnemonic = .directive .equ) :
    context.Executed (.ok (.statement statement)) (context.equate statement) := by
  rw [equate]
  cases hlabel : statement.label with
  | none => exact .incomplete _ hmnemonic (.inl hlabel)
  | some label =>
    dsimp only
    cases hoperand : statement.firstOperand with
    | error fault => exact .incomplete _ hmnemonic (.inr (firstOperand_eq_error hoperand))
    | ok operand =>
      dsimp only
      cases hvalue : Expression.evaluate .equ operand context.symbols with
      | error fault =>
        exact .valueless hmnemonic hlabel (firstOperand_eq_ok_iff.mp hoperand) hvalue
      | ok value => exact .equated hmnemonic hlabel (firstOperand_eq_ok_iff.mp hoperand) hvalue

private theorem performed_placing {word : Directive} {place : Context → Except Fault Context}
    (hmnemonic : statement.mnemonic = .directive word)
    (hplacing : (Mnemonic.directive word).placing? = some place) :
    bound.Performed statement (bound.placing word place).1 (bound.placing word place).2 := by
  rw [placing]
  cases hplace : place bound with
  | error fault => exact .unplaced hmnemonic hplacing hplace
  | ok placed => exact .placed hmnemonic hplacing hplace

/-- The label of a statement is bound before the statement is performed. -/
theorem executed_afterLabel {context : Context} {perform : Context → Context × Except Fault Record}
    (hmnemonic : statement.mnemonic ≠ .directive .equ)
    (hperform : ∀ bound : Context, bound.Performed statement (perform bound).1 (perform bound).2) :
    context.Executed (.ok (.statement statement)) (context.afterLabel statement.label perform) :=
  .performed hmnemonic (hperform _)

/-- The effect of every source line is listed. -/
theorem executed_execute (context : Context) (source : Except Fault SourceLine) :
    context.Executed source (context.execute source) := by
  match source with
  | .error fault => exact .unread fault
  | .ok (.literal text) => exact .literal text
  | .ok (.statement statement) =>
    rw [execute, executeStatement]
    cases hmnemonic : statement.mnemonic with
    | directive word =>
      cases word with
      | start =>
        refine executed_afterLabel (by simp [hmnemonic]) fun bound => ?_
        exact .refused _ (by rw [hmnemonic]; rfl) (by rw [hmnemonic]; rfl)
      | finish =>
        exact executed_afterLabel (by simp [hmnemonic]) fun bound =>
          performed_placing hmnemonic rfl
      | origin =>
        exact executed_afterLabel (by simp [hmnemonic]) fun bound => performed_origin hmnemonic
      | equ => exact executed_equate hmnemonic
      | ltorg =>
        exact executed_afterLabel (by simp [hmnemonic]) fun bound =>
          performed_placing hmnemonic rfl
    | declaration word =>
      cases word with
      | constant =>
        exact executed_afterLabel (by simp [hmnemonic]) fun bound =>
          performed_declareConstant hmnemonic
      | storage =>
        exact executed_afterLabel (by simp [hmnemonic]) fun bound =>
          performed_declareStorage hmnemonic
    | operation opcode =>
      exact executed_afterLabel (by simp [hmnemonic]) fun bound => performed_instruction hmnemonic

end Context

end Assembler
