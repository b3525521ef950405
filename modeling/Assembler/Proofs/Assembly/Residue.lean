import Assembler.Proofs.Assembly.Blame
import Assembler.Proofs.Assembly.Pending

/-!
# What a failing line leaves behind

A line that ends in an error leaves no record and exactly one error, and the literal table stays
as it was.  A line that cannot be read does nothing at all.  A statement that fails has bound its
label by then, to the location counter or, if it is an equation, to whatever the label was bound to
before; and an instruction or a constant has taken its word, unless there was no room for it.
Nothing that the operands mention is entered anywhere.

## Main definitions

* `SymbolTable.Rebound` : the symbol tables differ in the address of one name at most.
* `Fault.blamesOperands` : faults of operands.
* `Context.Residue` : the context after a source line that fails.
* `Scan.Residue` : what a failing line leaves behind.

## Main results

* `Context.residue_execute` : the context after every source line that fails.
* `Scan.residue_of_failed` : what every failing line leaves behind, wherever programs have led.
-/

namespace Assembler

/-! ### Tables that differ in one row -/

/-- The tables differ in the row of one name at most.  That name has an address that is given, or
none; it comes to stand behind the others if it is new, and otherwise keeps its length. -/
structure SymbolTable.Rebound (old new : SymbolTable) (name : String) (address? : Option Nat) :
    Prop where
  names : new.names = if name ∈ old.names then old.names else old.names ++ [name]
  row : new.find? name = some ⟨name, address?, ((old.find? name).map Symbol.length).getD 1⟩
  others : ∀ other, other ≠ name → new.find? other = old.find? other

namespace SymbolTable

/-- After a name is bound it has a row with its address; all other rows are as they were. -/
theorem find?_define (table : SymbolTable) (name other : String) (address : Nat) :
    (table.define name address).2.find? other =
      if other = name then
        ((table.enter name).find? other).map fun symbol => { symbol with address := some address }
      else (table.enter name).find? other :=
  find?_update _ _ _ fun _ => rfl

private theorem rebound_enter (table : SymbolTable) (name : String) :
    table.Rebound (table.enter name) name (table.addressOf? name) where
  names := names_enter table name
  row := by
    rw [find?_enter, if_pos rfl, addressOf?]
    cases hrow : table.find? name with
    | none => rfl
    | some symbol =>
      have hname : symbol.name = name := name_of_find? hrow
      rw [← hname]
      rfl
  others other hother := by rw [find?_enter, if_neg hother]

private theorem rebound_define (table : SymbolTable) (name : String) (address : Nat) :
    table.Rebound (table.define name address).2 name (some address) where
  names := by rw [names_define, names_enter]
  row := by
    rw [find?_define, if_pos rfl, (table.rebound_enter name).row]
    rfl
  others other hother := by
    rw [find?_define, if_neg hother, (table.rebound_enter name).others other hother]

end SymbolTable

/-! ### Faults of operands -/

/-- Whether a fault is one of the operands of a statement. -/
def Fault.blamesOperands : Fault → Bool
  | malformed (.missingOperand _) => true
  | malformed (.badRegister _) => true
  | malformed (.constantTooLarge _) => true
  | malformed (.badMemoryOperand _) => true
  | badOperand _ _ => true
  | _ => false

theorem Operands.Blamed.blamesOperands {operands : Operands} {fault : Fault}
    (h : operands.Blamed fault) : fault.blamesOperands = true := by
  cases h <;> rfl

private theorem Statement.blamesOperands_of_firstOperand {statement : Statement} {fault : Fault}
    (h : statement.firstOperand = .error fault) : fault.blamesOperands = true := by
  rw [firstOperand] at h
  split at h
  · cases h
  · cases h
    rfl

namespace Context

variable {context bound after : Context} {statement : Statement} {fault : Fault}

/-- The fault of a statement that takes a word in a context: a fault of its operands, or that there
is no room for the word. -/
def WordFault (context : Context) (fault : Fault) : Prop :=
  if context.location + 1 ≤ maxAddress then fault.blamesOperands = true
  else fault = .locationOverflow context.location 1

private theorem wordFault_of_full (h : Location.advance bound.location 1 = .error fault) :
    bound.WordFault fault := by
  obtain ⟨hfault, hroom⟩ := Location.advance_eq_error_iff.mp h
  rw [WordFault, if_neg (Nat.not_le.mpr hroom)]
  exact hfault

private theorem wordFault_of_blamesOperands {next : Nat}
    (h : Location.advance bound.location 1 = .ok next) (hblames : fault.blamesOperands = true) :
    bound.WordFault fault := by
  rw [WordFault, if_pos (Location.advance_eq_ok_iff.mp h).2]
  exact hblames

private theorem wordFault_of_instruction {opcode : Opcode} {operands : Operands}
    (h : (bound.instruction opcode operands).2 = .error fault) : bound.WordFault fault := by
  rw [instruction] at h
  split at h
  · rename_i hadvance
    cases h
    exact wordFault_of_full hadvance
  · rename_i next hadvance
    refine wordFault_of_blamesOperands hadvance ?_
    dsimp only at h
    split at h
    · rename_i hregister
      cases h
      exact (Operands.blamed_of_registerField hregister).blamesOperands
    · split at h
      · rename_i hrefer
        cases h
        exact (Operands.blamed_of_referOption hrefer).blamesOperands
      · cases h

private theorem wordFault_of_declareConstant
    (h : (bound.declareConstant statement).2 = .error fault) : bound.WordFault fault := by
  rw [declareConstant] at h
  split at h
  · rename_i hadvance
    cases h
    exact wordFault_of_full hadvance
  · rename_i next hadvance
    refine wordFault_of_blamesOperands hadvance ?_
    dsimp only at h
    split at h
    · rename_i hoperand
      cases h
      exact Statement.blamesOperands_of_firstOperand hoperand
    · rename_i operand hoperand
      have hmem := Operands.mem_toList_of_first? (firstOperand_eq_ok_iff.mp hoperand)
      cases hvalue : constantValue operand with
      | error bad =>
        rw [hvalue] at h
        cases h
        exact (Operands.blamed_of_constantValue hmem hvalue).blamesOperands
      | ok value =>
        rw [hvalue] at h
        cases h

/-- Binding the label keeps the location counter, so the fault of a statement that takes a word is
one in the context before it. -/
theorem wordFault_of_execute (hword : statement.mnemonic.takesWord = true)
    (h : (context.execute (.ok (.statement statement))).result = .error fault) :
    context.WordFault fault := by
  have hlocation := bindLabel_location context statement.label context.location
  rw [execute, executeStatement] at h
  cases hmnemonic : statement.mnemonic with
  | directive word =>
    rw [hmnemonic] at hword
    cases hword
  | declaration word =>
    cases word with
    | storage =>
      rw [hmnemonic] at hword
      cases hword
    | constant =>
      rw [hmnemonic] at h
      cases hresult : ((context.bindLabel statement.label context.location).2.declareConstant
          statement).2 with
      | ok record => simp [afterLabel, declaration, hresult, Except.map] at h
      | error bad =>
        obtain rfl : bad = fault := by
          simpa [afterLabel, declaration, hresult, Except.map] using h
        have hfault := wordFault_of_declareConstant hresult
        rwa [WordFault, hlocation] at hfault
  | operation opcode =>
    rw [hmnemonic] at h
    cases hresult : ((context.bindLabel statement.label context.location).2.instruction opcode
        statement.operands).2 with
    | ok record => simp [afterLabel, hresult, Except.map] at h
    | error bad =>
      obtain rfl : bad = fault := by simpa [afterLabel, hresult, Except.map] using h
      have hfault := wordFault_of_instruction hresult
      rwa [WordFault, hlocation] at hfault

end Context

/-! ### The context after a failing line -/

/-- The label whose row a statement may change although it fails.  An equation without an operand
does not come to its label. -/
def Statement.touchedLabel? (statement : Statement) : Option String :=
  if statement.mnemonic = .directive .equ ∧ statement.operands.first? = none then none
  else statement.label

/-- The address that the label of a failing statement has afterwards: the location counter before
the statement, but for the label of an equation the address that it had, if any. -/
def Statement.residualAddress? (statement : Statement) (context : Context) (label : String) :
    Option Nat :=
  if statement.mnemonic = .directive .equ then context.symbols.addressOf? label
  else some context.location

/-- How a statement places literals one step at a time, if it does. -/
def Mnemonic.placingSteps? : Mnemonic → Option (Context → Context × Option Fault)
  | directive .ltorg => some Context.placePoolStepwise
  | directive .finish => some Context.closeStepwise
  | _ => none

namespace Context

/-- The context after a source line that fails with a fault. -/
structure Residue (context : Context) (source : Except Fault SourceLine) (fault : Fault)
    (after : Context) : Prop where
  start : after.start = context.start
  literals : after.literals = context.literals
  /-- A line that cannot be read does nothing. -/
  unread : ∀ reason, source = .error reason → after = context
  unlabelled : ∀ statement, source = .ok (.statement statement) →
    statement.touchedLabel? = none → after.symbols = context.symbols
  labelled : ∀ statement label, source = .ok (.statement statement) →
    statement.touchedLabel? = some label →
      context.symbols.Rebound after.symbols label (statement.residualAddress? context label)
  /-- Only a statement that has taken its word moves the counter. -/
  location : ∀ statement, source = .ok (.statement statement) →
    after.location = context.location +
      if statement.mnemonic.takesWord ∧ fault.blamesOperands then 1 else 0
  /-- A statement whose operands are not to blame has found no room for its word. -/
  full : ∀ statement, source = .ok (.statement statement) → statement.mnemonic.takesWord = true →
    fault.blamesOperands = false →
      fault = .locationOverflow context.location 1 ∧ maxAddress < context.location + 1
  /-- Of the steps in which literals are placed none has been taken when one of them fails. -/
  unplaced : ∀ statement steps, source = .ok (.statement statement) →
    statement.mnemonic.placingSteps? = some steps → steps after = (after, some fault)

variable {context bound after : Context} {statement : Statement} {fault : Fault}

/-- A statement that fails once its label is bound keeps the tables, and moves the counter exactly
when it takes a word for which there is room. -/
private theorem Performed.eq_of_error (h : bound.Performed statement after (.error fault)) :
    after = { bound with
      location := bound.location +
        if statement.mnemonic.takesWord ∧ bound.location + 1 ≤ maxAddress then 1 else 0 } := by
  cases h with
  | refused _ hword => simp [hword]
  | full _ _ hroom => simp [Nat.not_le.mpr hroom]
  | spoiled _ hword hroom => simp [hword, hroom]
  | unplaced hmnemonic => simp [hmnemonic, Mnemonic.takesWord]

private theorem placingSteps_eq {mnemonic : Mnemonic} {steps : Context → Context × Option Fault}
    (hsteps : mnemonic.placingSteps? = some steps) (horderly : bound.literals.Orderly) :
    steps bound =
      if bound.location + bound.literals.openSize ≤ maxAddress then (bound.poolPlaced, none)
      else (bound, some (.locationOverflow bound.location bound.literals.openSize)) := by
  rw [← placePoolStepwise_eq horderly]
  unfold Mnemonic.placingSteps? at hsteps
  split at hsteps
  · rw [← Option.some.inj hsteps]
  · rw [← Option.some.inj hsteps, closeStepwise_eq horderly]
  · cases hsteps

/-- A statement that cannot place literals stops at the first step. -/
private theorem Performed.placingSteps_of_error (h : bound.Performed statement after (.error fault))
    (horderly : bound.literals.Orderly) {steps : Context → Context × Option Fault}
    (hsteps : statement.mnemonic.placingSteps? = some steps) :
    steps after = (after, some fault) := by
  have hplaces : statement.mnemonic.takesWord = false ∧ statement.mnemonic.placing? ≠ none := by
    unfold Mnemonic.placingSteps? at hsteps
    split at hsteps
    · simp_all [Mnemonic.takesWord, Mnemonic.placing?]
    · simp_all [Mnemonic.takesWord, Mnemonic.placing?]
    · cases hsteps
  cases h with
  | refused _ _ hplacing => exact absurd hplacing hplaces.2
  | full _ hword => simp [hplaces.1] at hword
  | spoiled _ hword => simp [hplaces.1] at hword
  | unplaced hmnemonic hplacing hfault =>
    have hroom := lt_of_placing_eq_error horderly hplacing hfault
    rw [placing_eq horderly hplacing, placePool_eq horderly,
      if_neg (Nat.not_le.mpr hroom)] at hfault
    rw [placingSteps_eq hsteps horderly, if_neg (Nat.not_le.mpr hroom), Except.error.inj hfault]

private theorem WordFault.blamesOperands_iff (h : context.WordFault fault) :
    fault.blamesOperands = true ↔ context.location + 1 ≤ maxAddress := by
  unfold WordFault at h
  split_ifs at h with hroom
  · exact iff_of_true h hroom
  · rw [h]
    exact iff_of_false (by simp [Fault.blamesOperands]) hroom

private theorem residue_of_unread (reason : Fault) :
    context.Residue (.error reason) fault context where
  start := rfl
  literals := rfl
  unread _ _ := rfl
  unlabelled _ _ _ := rfl
  labelled _ _ hread := by cases hread
  location _ hread := by cases hread
  full _ hread := by cases hread
  unplaced _ _ hread := by cases hread

private theorem residue_of_performed (horderly : context.literals.Orderly)
    (hmnemonic : statement.mnemonic ≠ .directive .equ)
    (h : (context.bindLabel statement.label context.location).2.Performed statement after
      (.error fault))
    (hfault : statement.mnemonic.takesWord = true → context.WordFault fault) :
    context.Residue (.ok (.statement statement)) fault after := by
  have hsteps : ∀ steps, statement.mnemonic.placingSteps? = some steps →
      steps after = (after, some fault) :=
    fun _ => h.placingSteps_of_error (orderly_bindLabel horderly _ _)
  have hafter := h.eq_of_error
  rw [bindLabel_location] at hafter
  subst hafter
  have htouched : statement.touchedLabel? = statement.label := if_neg fun hboth => hmnemonic hboth.1
  refine ⟨bindLabel_start _ _ _, bindLabel_literals _ _ _, fun _ hread => ?_, ?_, ?_, ?_, ?_, ?_⟩
  · cases hread
  · rintro _ ⟨⟩ hlabel
    rw [htouched] at hlabel
    rw [hlabel]
    rfl
  · rintro _ label ⟨⟩ hlabel
    rw [htouched] at hlabel
    rw [hlabel, Statement.residualAddress?, if_neg hmnemonic]
    exact SymbolTable.rebound_define context.symbols label context.location
  · rintro _ ⟨⟩
    by_cases hword : statement.mnemonic.takesWord = true
    · simp only [hword, true_and, (hfault hword).blamesOperands_iff]
    · simp [hword]
  · rintro _ ⟨⟩ hword hblames
    have hroom : ¬context.location + 1 ≤ maxAddress := by
      rw [← (hfault hword).blamesOperands_iff, hblames]
      simp
    have hfull := hfault hword
    rw [WordFault, if_neg hroom] at hfull
    exact ⟨hfull, Nat.not_le.mp hroom⟩
  · rintro _ steps ⟨⟩
    exact hsteps steps

/-- An equation that fails keeps everything but the symbol table. -/
theorem residue_of_equation (hmnemonic : statement.mnemonic = .directive .equ)
    {symbols : SymbolTable}
    (hunlabelled : statement.touchedLabel? = none → symbols = context.symbols)
    (hlabelled : ∀ label, statement.touchedLabel? = some label →
      context.symbols.Rebound symbols label (context.symbols.addressOf? label)) :
    context.Residue (.ok (.statement statement)) fault { context with symbols := symbols } := by
  have hword : statement.mnemonic.takesWord = false := by rw [hmnemonic]; rfl
  refine ⟨rfl, rfl, fun _ hread => ?_, ?_, ?_, ?_, ?_, ?_⟩
  · cases hread
  · rintro _ ⟨⟩ htouched
    exact hunlabelled htouched
  · rintro _ label ⟨⟩ htouched
    rw [Statement.residualAddress?, if_pos hmnemonic]
    exact hlabelled label htouched
  · rintro _ ⟨⟩
    simp [hword]
  · rintro _ ⟨⟩ htakes
    rw [hword] at htakes
    cases htakes
  · rintro _ steps ⟨⟩ hplacing
    rw [hmnemonic] at hplacing
    cases hplacing

private theorem residue_of_incomplete (hmnemonic : statement.mnemonic = .directive .equ)
    (hparts : statement.label = none ∨ statement.operands.first? = none) :
    context.Residue (.ok (.statement statement)) fault context := by
  have htouched : statement.touchedLabel? = none := by
    rw [Statement.touchedLabel?]
    rcases hparts with hlabel | hoperand
    · rw [hlabel, ite_self]
    · rw [if_pos ⟨hmnemonic, hoperand⟩]
  refine residue_of_equation hmnemonic (fun _ => rfl) fun label hlabel => ?_
  rw [htouched] at hlabel
  cases hlabel

private theorem residue_of_valueless {label operand : String}
    (hmnemonic : statement.mnemonic = .directive .equ) (hlabel : statement.label = some label)
    (hoperand : statement.operands.first? = some operand) :
    context.Residue (.ok (.statement statement)) fault
      { context with symbols := context.symbols.enter label } := by
  have htouched : statement.touchedLabel? = some label := by
    rw [Statement.touchedLabel?, hoperand, if_neg (by simp), hlabel]
  refine residue_of_equation hmnemonic (fun hnone => ?_) fun other hother => ?_
  · rw [htouched] at hnone
    cases hnone
  · obtain rfl : label = other := Option.some.inj (htouched.symm.trans hother)
    exact SymbolTable.rebound_enter context.symbols label

/-- What a source line that fails makes of the context. -/
theorem residue_execute {source : Except Fault SourceLine} (horderly : context.literals.Orderly)
    (h : (context.execute source).result = .error fault) :
    context.Residue source fault (context.execute source).context := by
  have hword : ∀ statement, source = .ok (.statement statement) →
      statement.mnemonic.takesWord = true → context.WordFault fault := by
    rintro statement rfl htakes
    exact wordFault_of_execute htakes h
  have hexecuted := context.executed_execute source
  generalize context.execute source = effect at h hexecuted
  cases hexecuted with
  | unread reason => exact residue_of_unread reason
  | literal => cases h
  | @performed statement after result hmnemonic hresult =>
    cases result with
    | ok record => cases h
    | error reason =>
      cases h
      exact residue_of_performed horderly hmnemonic hresult (hword statement rfl)
  | incomplete _ hmnemonic hparts => exact residue_of_incomplete hmnemonic hparts
  | valueless hmnemonic hlabel hoperand =>
    exact residue_of_valueless hmnemonic hlabel hoperand
  | equated => cases h

end Context

/-! ### Failing lines -/

namespace Trace

variable {number address : Nat} {warnings : List Fault} {result : Except Fault (Option Record)}

/-- Warnings are no errors. -/
theorem filter_isError_warnings (number : Nat) (warnings : List Fault) :
    (warnings.map (Diagnostic.mk number .warning)).filter Diagnostic.isError = [] := by
  rw [List.filter_eq_nil_iff]
  intro diagnostic hdiagnostic
  obtain ⟨fault, -, rfl⟩ := List.mem_map.mp hdiagnostic
  simp [Diagnostic.isError]

/-- The errors of a line are the fault that keeps it from being executed. -/
theorem errors_ofLine :
    (ofLine number address warnings result).diagnostics.filter Diagnostic.isError =
      match result with
      | .error fault => [⟨number, .error, fault⟩]
      | .ok _ => [] := by
  cases result with
  | ok record? => exact filter_isError_warnings number warnings
  | error fault =>
    change (warnings.map _ ++ [_]).filter _ = _
    rw [List.filter_append, filter_isError_warnings]
    rfl

/-- A line fails exactly when a fault keeps it from being executed. -/
theorem failed_ofLine_iff :
    (ofLine number address warnings result).Failed ↔ ∃ fault, result = .error fault := by
  constructor
  · rintro ⟨diagnostic, hmem, herror⟩
    have herrors : diagnostic ∈ (ofLine number address warnings result).diagnostics.filter
        Diagnostic.isError := List.mem_filter.mpr ⟨hmem, herror⟩
    rw [errors_ofLine] at herrors
    cases result with
    | ok record? => cases herrors
    | error fault => exact ⟨fault, rfl⟩
  · rintro ⟨fault, rfl⟩
    exact failed_ofLine fault

/-- The diagnostics of a line carry its number. -/
theorem line_of_mem_ofLine {diagnostic : Diagnostic}
    (h : diagnostic ∈ (ofLine number address warnings result).diagnostics) :
    diagnostic.line = number := by
  have hwarning : ∀ warning ∈ warnings.map (Diagnostic.mk number .warning),
      warning.line = number := by
    intro warning hmem
    obtain ⟨fault, -, rfl⟩ := List.mem_map.mp hmem
    rfl
  cases result with
  | ok record? => exact hwarning diagnostic h
  | error fault =>
    rcases List.mem_append.mp h with hmem | hlast
    · exact hwarning diagnostic hmem
    · rw [List.mem_singleton.mp hlast]

end Trace

namespace Scan

/-- What a line that fails leaves behind. -/
structure Residue (scan : Scan) (number : Nat) (line : String) (outcome : Trace × Scan) : Prop where
  no_record : outcome.1.records = []
  /-- All that is noted is noted on the line, and a single fault is an error. -/
  noted : ∀ diagnostic ∈ outcome.1.diagnostics, diagnostic.line = number
  one_error : ∃ fault,
    outcome.1.diagnostics.filter Diagnostic.isError = [⟨number, .error, fault⟩] ∧
      scan.context.Residue (SourceLine.ofText line) fault outcome.2.context

end Scan

end Assembler
