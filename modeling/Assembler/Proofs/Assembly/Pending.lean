import Assembler.Proofs.Assembly.Event

/-!
# Rows without an address

A name comes into the symbol table without an address in two ways.  An instruction mentions it
before it is bound: then a record refers to its row.  Or it is the label of an equation that has no
value: then there is an error.  Nothing takes an address away, so at any time a name without an
address is accounted for by a record or by an error.

A literal waits for its address until a pool is placed.  The END of a program places what waits, or
there is an error.

## Main definitions

* `Trace.Failed`, `Trace.Mentions` : lines with an error, and with a record that refers to a symbol.
* `Scan.Accounted` : every name without an address is accounted for, and so is every literal once
  the program has ended.

## Main results

* `Context.Executed.introduced` : what becomes of a name that a line enters.
* `Scan.accounted_run` : rows are accounted for after any lines.
* `accounted_assemble` : rows are accounted for in the end.
-/

namespace Assembler

namespace Trace

/-- Some diagnostic of a trace is an error. -/
def Failed (trace : Trace) : Prop :=
  ∃ diagnostic ∈ trace.diagnostics, diagnostic.isError = true

/-- Some instruction of a trace refers to the symbol with an index. -/
def Mentions (trace : Trace) (index : Nat) : Prop :=
  ∃ record ∈ trace.records, ∃ opcode register,
    record.content = .instruction opcode register (.symbol index)

theorem failed_append {earlier later : Trace} :
    (earlier.append later).Failed ↔ earlier.Failed ∨ later.Failed := by
  simp only [Failed, append, List.mem_append, or_and_right, exists_or]

private theorem mentions_append {earlier later : Trace} {index : Nat} :
    (earlier.append later).Mentions index ↔ earlier.Mentions index ∨ later.Mentions index := by
  simp only [Mentions, append, List.mem_append, or_and_right, exists_or]

variable {number address : Nat} {warnings : List Fault}

theorem failed_ofLine (fault : Fault) : (ofLine number address warnings (.error fault)).Failed :=
  ⟨⟨number, .error, fault⟩, List.mem_append_right _ (List.mem_singleton_self _), rfl⟩

private theorem mentions_ofLine (opcode : Opcode) (register index : Nat) :
    (ofLine number address warnings
      (.ok (some (.instruction opcode register (.symbol index))))).Mentions index :=
  ⟨⟨number, address, _⟩, List.mem_singleton_self _, opcode, register, rfl⟩

end Trace

namespace Context

/-! ### Names that a line enters -/

/-- A name that a memory operand enters is that operand, and the reference is to its row. -/
theorem Referred.introduced {context after : Context} {operand? : Option String}
    {reference : Reference} (h : context.Referred operand? reference after) {name : String}
    (hnew : name ∉ context.symbols.names) (hmem : name ∈ after.symbols.names) :
    reference = .symbol (after.symbols.index name) := by
  cases h with
  | absent => exact absurd hmem hnew
  | literal => exact absurd hmem hnew
  | constant => exact absurd hmem hnew
  | symbol =>
    obtain rfl := SymbolTable.eq_of_mem_names_enter hmem hnew
    rw [SymbolTable.index_enter_self]

/-- A name that performing a statement enters is referred to by the record of the statement. -/
theorem Performed.introduced {bound after : Context} {statement : Statement}
    {result : Except Fault Record} (h : bound.Performed statement after result) {name : String}
    (hnew : name ∉ bound.symbols.names) (hmem : name ∈ after.symbols.names) :
    ∃ opcode register,
      result = .ok (.instruction opcode register (.symbol (after.symbols.index name))) := by
  cases h with
  | @instruction opcode register reference _ _ _ _ hrefer =>
    exact ⟨opcode, register, by rw [hrefer.introduced hnew hmem]⟩
  | storage =>
    rw [SymbolTable.names_elim_setLength] at hmem
    exact absurd hmem hnew
  | placed _ hplacing hplaced =>
    rw [(rows_of_placing hplacing hplaced).1] at hmem
    exact absurd hmem hnew
  | _ => exact absurd hmem hnew

/-- A name that binding enters is bound. -/
theorem isSome_addressOf?_bindName {context : Context} {name other : String} {address : Nat}
    (hnew : other ∉ context.symbols.names)
    (hmem : other ∈ (context.bindName name address).2.symbols.names) :
    ((context.bindName name address).2.symbols.addressOf? other).isSome := by
  change other ∈ (context.symbols.define name address).2.names at hmem
  rw [SymbolTable.names_define] at hmem
  obtain rfl := SymbolTable.eq_of_mem_names_enter hmem hnew
  rw [addressOf?_bindName, lastBinding?_singleton, if_pos rfl]
  rfl

private theorem isSome_addressOf?_bindLabel {context : Context} {label? : Option String}
    {other : String} {address : Nat} (hnew : other ∉ context.symbols.names)
    (hmem : other ∈ (context.bindLabel label? address).2.symbols.names) :
    ((context.bindLabel label? address).2.symbols.addressOf? other).isSome := by
  cases label? with
  | none => exact absurd hmem hnew
  | some label => exact isSome_addressOf?_bindName hnew hmem

/-- A name that a source line enters is bound, or there is an error, or the record of the line
refers to it. -/
theorem Executed.introduced {context : Context} {source : Except Fault SourceLine}
    {effect : Effect} (h : context.Executed source effect) {name : String}
    (hnew : name ∉ context.symbols.names) (hmem : name ∈ effect.context.symbols.names)
    (number address : Nat) (warnings : List Fault) :
    (effect.context.symbols.addressOf? name).isSome ∨
      (Trace.ofLine number address warnings effect.result).Failed ∨
      (Trace.ofLine number address warnings effect.result).Mentions
        (effect.context.symbols.index name) := by
  cases h with
  | unread => exact absurd hmem hnew
  | literal => exact absurd hmem hnew
  | @performed statement after result _ hresult =>
    by_cases hbound : name ∈ (context.bindLabel statement.label context.location).2.symbols.names
    · -- the name is the label of the statement
      exact .inl (hresult.grows.bound name (isSome_addressOf?_bindLabel hnew hbound))
    · obtain ⟨opcode, register, rfl⟩ := hresult.introduced hbound hmem
      exact .inr (.inr (Trace.mentions_ofLine opcode register _))
  | incomplete => exact absurd hmem hnew
  | valueless => exact .inr (.inl (Trace.failed_ofLine _))
  | equated => exact .inl (isSome_addressOf?_bindName hnew hmem)

/-- An END leaves no literal waiting, or there is an error. -/
theorem Executed.closed {context : Context} {statement : Statement} {effect : Effect}
    (h : context.Executed (.ok (.statement statement)) effect)
    (horderly : context.literals.Orderly) (hmnemonic : statement.mnemonic = .directive .finish)
    (number address : Nat) (warnings : List Fault) :
    (Trace.ofLine number address warnings effect.result).Failed ∨
      effect.context.literals.openSize = 0 := by
  cases h with
  | performed _ hresult =>
    have horderly' := orderly_bindLabel horderly statement.label context.location
    cases hresult with
    | refused => exact .inl (Trace.failed_ofLine _)
    | full => exact .inl (Trace.failed_ofLine _)
    | spoiled => exact .inl (Trace.failed_ofLine _)
    | unplaced => exact .inl (Trace.failed_ofLine _)
    | placed _ hplacing hplaced =>
      rw [(eq_poolPlaced_of_placing horderly' hplacing hplaced).1]
      exact .inr (LiteralTable.openSize_placeRest horderly'.mark_le _)
    | instruction hother => simp [hmnemonic] at hother
    | constant hother => simp [hmnemonic] at hother
    | storage hother => simp [hmnemonic] at hother
    | origin hother => simp [hmnemonic] at hother
  | incomplete => exact .inl (Trace.failed_ofLine _)
  | valueless => exact .inl (Trace.failed_ofLine _)
  | equated hother => simp [hmnemonic] at hother

end Context

namespace Scan

variable {scan : Scan} {number : Nat} {line : String} {outcome : Trace × Scan} {trace : Trace}

/-! ### Lines -/

/-- A name that a line enters is bound, or there is an error, or the record of the line refers to
it. -/
theorem Stepped.introduced (h : scan.Stepped number line outcome) {name : String}
    (hnew : name ∉ scan.context.symbols.names) (hmem : name ∈ outcome.2.context.symbols.names) :
    (outcome.2.context.symbols.addressOf? name).isSome ∨ outcome.1.Failed ∨
      outcome.1.Mentions (outcome.2.context.symbols.index name) := by
  cases h with
  | idle => exact absurd hmem hnew
  | opened => exact .inl (Context.isSome_addressOf?_bindLabel hnew hmem)
  | proceeded => exact (Context.executed_execute _ _).introduced hnew hmem _ _ _

/-- Only an END ends a program. -/
theorem exists_finish_of_phase_eq_ended {warnings : List Fault} {source : Except Fault SourceLine}
    {context : Context} (h : (proceed number warnings source context).2.phase = .ended) :
    ∃ statement, source = .ok (.statement statement) ∧
      statement.mnemonic = .directive .finish := by
  dsimp only [proceed] at h
  split at h
  · rename_i source
    split_ifs at h with hend
    cases source with
    | literal text => exact absurd hend (by simp [SourceLine.isEnd])
    | statement statement => exact ⟨statement, rfl, by simpa [SourceLine.isEnd] using hend⟩
  · exact absurd h (by simp)

/-- A line that ends a program leaves no literal waiting, or there is an error. -/
theorem Stepped.closed (h : scan.Stepped number line outcome)
    (horderly : scan.context.literals.Orderly) (hended : outcome.2.phase = .ended) :
    outcome.2 = scan ∨ outcome.1.Failed ∨ outcome.2.context.literals.openSize = 0 := by
  cases h with
  | idle => exact .inl rfl
  | opened => exact absurd hended (by simp [openWith])
  | proceeded =>
    obtain ⟨statement, hread, hmnemonic⟩ := exists_finish_of_phase_eq_ended hended
    have hexecuted := Context.executed_execute scan.context (SourceLine.ofText line)
    rw [hread] at hexecuted ⊢
    exact .inr (hexecuted.closed horderly hmnemonic _ _ _)

/-- Names without an address are accounted for by errors and records, and once the program has
ended no literal waits unless there is an error. -/
structure Accounted (trace : Trace) (scan : Scan) : Prop where
  names : ∀ name ∈ scan.context.symbols.names, scan.context.symbols.addressOf? name = none →
    trace.Failed ∨ trace.Mentions (scan.context.symbols.index name)
  ended : scan.phase = .ended → trace.Failed ∨ scan.context.literals.openSize = 0

theorem Stepped.accounted (h : scan.Stepped number line outcome)
    (horderly : scan.context.literals.Orderly) (haccounted : Accounted trace scan) :
    Accounted (trace.append outcome.1) outcome.2 := by
  have hgrows := h.grows
  refine ⟨fun name hmem hnone => ?_, fun hended => ?_⟩
  · rw [Trace.failed_append, Trace.mentions_append]
    by_cases hold : name ∈ scan.context.symbols.names
    · -- the name had no address before, and it keeps its index
      have hunbound : scan.context.symbols.addressOf? name = none := by
        by_contra hsome
        have hbound := hgrows.bound name (Option.isSome_iff_ne_none.mpr hsome)
        rw [hnone] at hbound
        exact absurd hbound (by simp)
      rw [SymbolTable.index_eq_of_prefix hgrows.names hold]
      rcases haccounted.names name hold hunbound with hfailed | hmentions
      · exact .inl (.inl hfailed)
      · exact .inr (.inl hmentions)
    · rcases h.introduced hold hmem with hbound | hfailed | hmentions
      · rw [hnone] at hbound
        exact absurd hbound (by simp)
      · exact .inl (.inr hfailed)
      · exact .inr (.inr hmentions)
  · rw [Trace.failed_append]
    rcases h.closed horderly hended with hsame | hfailed | hopen
    · rw [hsame] at hended ⊢
      exact (haccounted.ended hended).imp_left .inl
    · exact .inl (.inr hfailed)
    · exact .inr hopen

/-- Rows are accounted for after any lines. -/
theorem accounted_run (number : Nat) (lines : List String) :
    Accounted (run number lines ⟨.opening, {}⟩).1 (run number lines ⟨.opening, {}⟩).2 := by
  have hempty : Accounted {} ⟨.opening, {}⟩ :=
    ⟨fun _ hmem => absurd hmem List.not_mem_nil, fun hended => absurd hended (by simp)⟩
  have hrun := run_induction number lines {}
    (motive := fun trace next => next.context.literals.Orderly ∧ Accounted trace next)
    ⟨LiteralTable.orderly_empty, hempty⟩ ?_
  · exact hrun.2
  · intro trace next place line ⟨horderly, haccounted⟩
    have hstepped := next.stepped_step place line
    exact ⟨hstepped.orderly horderly, hstepped.accounted horderly haccounted⟩

end Scan

/-! ### Whole programs -/

/-- In the end a name without an address is accounted for by an error or a record, and no literal
waits unless there is an error. -/
theorem accounted_assemble (text : String) :
    (∀ name ∈ (assemble text).context.symbols.names,
      (assemble text).context.symbols.addressOf? name = none →
        (scanText text {}).1.Failed ∨
          (scanText text {}).1.Mentions ((assemble text).context.symbols.index name)) ∧
      ((scanText text {}).1.Failed ∨ (assemble text).context.literals.openSize = 0) := by
  have horderly := orderly_programScan text
  have haccounted := Scan.accounted_run 1 (programLines text)
  have htrace : (scanText text {}).1 =
      (Scan.run 1 (programLines text) ⟨.opening, {}⟩).1.append
        ((programScan text).finish (programLines text).length).1 := rfl
  have hsymbols : (assemble text).context.symbols = (programScan text).context.symbols := by
    rw [assemble_context, (Scan.rows_finish _ _).1]
  rw [hsymbols, htrace, Trace.failed_append]
  refine ⟨fun name hmem hnone => ?_, ?_⟩
  · rw [Trace.mentions_append]
    exact (haccounted.names name hmem hnone).imp .inl .inl
  · rw [assemble_context, Scan.finish_eq horderly]
    split_ifs with hphase hroom
    · exact (haccounted.ended hphase).imp_left .inl
    · exact .inr (LiteralTable.openSize_placeRest horderly.mark_le _)
    · exact .inl (.inr ⟨_, List.mem_cons_of_mem _ (List.mem_singleton_self _), rfl⟩)

end Assembler
