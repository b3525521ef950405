import Assembler.Proofs.Assembly.Event

/-!
# Addresses keep to their limit

Nothing in a program gives an address above `maxAddress`.  Numerals are read up to it, the sum of a
symbol and a distance is refused above it, and the location counter never passes it.  So every
address in the symbol table can be written down as a numeral that the assembler reads.

## Main definitions

* `Context.Bounded` : no address is above the limit.

## Main results

* `Expression.evaluate_le` : values of expressions.
* `Scan.bounded_run`, `bounded_assemble` : addresses after any lines, and in the end.
-/

namespace Assembler

/-- No symbol of a table has an address above the limit. -/
def SymbolTable.Bounded (table : SymbolTable) : Prop :=
  ∀ name address, table.addressOf? name = some address → address ≤ maxAddress

/-- Neither the location counter nor a symbol has an address above the limit. -/
structure Context.Bounded (context : Context) : Prop where
  location : context.location ≤ maxAddress
  symbols : context.symbols.Bounded

private theorem Text.readNumeral?_le {limit value : Nat} {text : List Char}
    (h : readNumeral? limit text = some value) : value ≤ limit :=
  (readNumeral?_eq_some_iff.mp h).2.2

private theorem Sign.move?_le {sign : Sign} {base distance address : Nat}
    (hbase : base ≤ maxAddress)
    (h : sign.move? base distance = some address) : address ≤ maxAddress := by
  cases sign with
  | plus =>
    rw [move?] at h
    split_ifs at h with hroom
    rwa [← Option.some.inj h]
  | minus =>
    rw [move?] at h
    split_ifs at h
    rw [← Option.some.inj h]
    exact (Nat.sub_le _ _).trans hbase

/-- Expressions over symbols with addresses within the limit have their values within it. -/
theorem Expression.evaluate_le {directive : Directive} {text : String} {symbols : SymbolTable}
    {value : Nat} (hsymbols : symbols.Bounded)
    (h : evaluate directive text symbols = .ok value) : value ≤ maxAddress := by
  dsimp only [evaluate] at h
  split_ifs at h
  · split at h
    · rename_i hread
      rw [← Except.ok.inj h]
      exact Text.readNumeral?_le hread
    · cases h
  · split at h
    · rename_i expression _
      rw [Expression.value] at h
      split at h
      · cases h
      · rename_i base hbase
        have hle : base ≤ maxAddress := hsymbols _ _ hbase
        split at h
        · rwa [← Except.ok.inj h]
        · split at h
          · rename_i address hmove
            obtain ⟨distance, -, hmoved⟩ := Option.bind_eq_some_iff.mp hmove
            rw [← Except.ok.inj h]
            exact Sign.move?_le hle hmoved
          · cases h
    · cases h

private theorem startAddress_le (operands : Operands) : (startAddress operands).2 ≤ maxAddress := by
  rw [startAddress]
  split
  · exact Nat.zero_le _
  · split
    · rename_i hread
      exact Text.readNumeral?_le hread
    · exact Nat.zero_le _

/-- A last binding is one of the bindings. -/
theorem mem_of_lastBinding? {bindings : List (String × Nat)} {name : String} {address : Nat}
    (h : lastBinding? bindings name = some address) : (name, address) ∈ bindings := by
  rw [lastBinding?, List.lookup_eq_some_iff] at h
  obtain ⟨before, after, hreverse, -⟩ := h
  rw [← List.mem_reverse, hreverse]
  exact List.mem_append_right _ List.mem_cons_self

namespace Context

/-- What a source line binds is bound within the limit. -/
theorem Bounded.bindings {context : Context} (h : context.Bounded)
    {source : Except Fault SourceLine} {name : String} {address : Nat}
    (hmem : (name, address) ∈ context.bindings source) : address ≤ maxAddress := by
  rcases source with fault | text | statement
  · exact absurd hmem List.not_mem_nil
  · exact absurd hmem List.not_mem_nil
  · have hbinding : statement.binding? context = some (name, address) :=
      Option.mem_toList.mp hmem
    by_cases hmnemonic : statement.mnemonic = .directive .equ
    · rw [Statement.binding?, hmnemonic] at hbinding
      dsimp only at hbinding
      cases hlabel : statement.label with
      | none => simp [hlabel] at hbinding
      | some label =>
        cases hoperand : statement.operands.first? with
        | none => simp [hlabel, hoperand] at hbinding
        | some operand =>
          cases hvalue : Expression.evaluate .equ operand context.symbols with
          | error fault => simp [hlabel, hoperand, hvalue, Except.toOption] at hbinding
          | ok value =>
            obtain ⟨-, rfl⟩ : label = name ∧ value = address := by
              simpa [hlabel, hoperand, hvalue, Except.toOption] using hbinding
            exact Expression.evaluate_le h.symbols hvalue
    · rw [Statement.binding?_of_ne_equ context hmnemonic] at hbinding
      obtain ⟨label, -, hpair⟩ := Option.map_eq_some_iff.mp hbinding
      rw [← (Prod.mk.inj hpair).2]
      exact h.location

private theorem bounded_bindLabel {context : Context} (h : context.Bounded)
    (label? : Option String) : (context.bindLabel label? context.location).2.Bounded := by
  refine ⟨by rw [bindLabel_location]; exact h.location, fun name address hbound => ?_⟩
  rw [addressOf?_bindLabel, Option.or_eq_some_iff] at hbound
  obtain hlast | ⟨-, hold⟩ := hbound
  · obtain ⟨label, -, hpair⟩ := Option.map_eq_some_iff.mp
      (Option.mem_toList.mp (mem_of_lastBinding? hlast))
    rw [← (Prod.mk.inj hpair).2]
    exact h.location
  · exact h.symbols name address hold

private theorem Performed.location_le {bound after : Context} {statement : Statement}
    {result : Except Fault Record} (h : bound.Performed statement after result)
    (horderly : bound.literals.Orderly) (hbound : bound.Bounded) :
    after.location ≤ maxAddress := by
  cases h with
  | refused => exact hbound.location
  | full => exact hbound.location
  | spoiled _ _ hroom => exact hroom
  | instruction _ hroom _ hrefer =>
    generalize statement.operands.memory? = operand? at hrefer
    cases hrefer <;> exact hroom
  | constant _ hroom => exact hroom
  | storage _ _ hroom => exact hroom
  | origin _ _ hvalue => exact Expression.evaluate_le hbound.symbols hvalue
  | placed _ hplacing hplaced =>
    obtain ⟨rfl, hroom⟩ := eq_poolPlaced_of_placing horderly hplacing hplaced
    exact hroom
  | unplaced => exact hbound.location

/-- A source line keeps addresses within the limit. -/
theorem Executed.bounded {context : Context} {source : Except Fault SourceLine}
    {effect : Effect} (h : context.Executed source effect) (horderly : context.literals.Orderly)
    (hbounded : context.Bounded) : effect.context.Bounded := by
  refine ⟨?_, fun name address hbound => ?_⟩
  · cases h with
    | performed _ hresult =>
      exact hresult.location_le (orderly_bindLabel horderly _ _) (bounded_bindLabel hbounded _)
    | _ => exact hbounded.location
  · rw [h.addressOf? horderly, Option.or_eq_some_iff] at hbound
    obtain hlast | ⟨-, hold⟩ := hbound
    · exact hbounded.bindings (mem_of_lastBinding? hlast)
    · exact hbounded.symbols name address hold

end Context

namespace Scan

variable {scan : Scan} {number : Nat} {line : String} {outcome : Trace × Scan}

private theorem Stepped.bounded (h : scan.Stepped number line outcome)
    (horderly : scan.context.literals.Orderly) (hbounded : scan.context.Bounded) :
    outcome.2.context.Bounded := by
  cases h with
  | idle => exact hbounded
  | @opened label operands =>
    have hopened : Context.Bounded { scan.context with
        start := (startAddress operands).2
        location := (startAddress operands).2 } := ⟨startAddress_le operands, hbounded.symbols⟩
    exact Context.bounded_bindLabel hopened label
  | proceeded => exact (Context.executed_execute _ _).bounded horderly hbounded

/-- Lines keep addresses within the limit. -/
theorem bounded_run (horderly : scan.context.literals.Orderly) (hbounded : scan.context.Bounded)
    (number : Nat) (lines : List String) : (run number lines scan).2.context.Bounded := by
  induction lines generalizing number scan with
  | nil => exact hbounded
  | cons line rest ih =>
    have hstepped := scan.stepped_step number line
    exact ih (hstepped.orderly horderly) (hstepped.bounded horderly hbounded) (number + 1)

end Scan

/-- In the end no address is above the limit. -/
theorem bounded_assemble (text : String) : (assemble text).context.Bounded := by
  have hempty : Context.Bounded {} := ⟨Nat.zero_le _, fun _ _ hnone => by cases hnone⟩
  have hscan : (programScan text).context.Bounded :=
    Scan.bounded_run LiteralTable.orderly_empty hempty 1 (programLines text)
  rw [assemble_context, Scan.finish_eq (orderly_programScan text)]
  split_ifs with hphase hroom
  · exact hscan
  · exact ⟨hroom, hscan.symbols⟩
  · exact hscan

end Assembler
