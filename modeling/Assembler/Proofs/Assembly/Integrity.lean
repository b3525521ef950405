import Assembler.Proofs.Assembly.Resolution
import Assembler.Proofs.Assembly.Success

/-!
# Records without dangling references

A record holds indices into the tables and a register, both of which the encoding must take as they
are.  The rows were there when the record was made and no row is ever removed, and no operand is
read as a register above 9.  So of all that could go wrong when a record is encoded only this is
left: its symbol or its literal has no address, or its address or its constant has more than three
digits.

Each record gives one word or one error and each line at most one record, so the errors come in the
order of their lines, one a line, and none stands beside a word.

## Main definitions

* `Reference.Within`, `Record.Within` : references to rows that are there, registers in range.
* `Reference.Unresolved`, `Record.Unencodable` : what keeps a record from being encoded.
* `Assembly.encodingDiagnostics` : what the encoding notes.
* `Intact` : a program whose records can be encoded but for that.

## Main results

* `Context.encode_eq_error_iff` : the faults of records that are within the tables.
* `intact_assemble` : every program is intact.
-/

namespace Assembler

/-! ### Records within the tables -/

/-- A reference to a row, counted from 1, is to one that the table has. -/
def Reference.Within (context : Context) : Reference → Prop
  | symbol index => 1 ≤ index ∧ index ≤ context.symbols.size
  | literal index => 1 ≤ index ∧ index ≤ context.literals.size
  | constant _ => True
  | none => True

/-- A record refers to rows that the tables have, and its register fits the field of a word. -/
def Record.Within (context : Context) : Record → Prop
  | directive _ _ => True
  | declaration _ _ => True
  | instruction _ register reference => register ≤ maxRegisterField ∧ reference.Within context

/-- A reference to a row without an address, and what is said about it. -/
inductive Reference.Unresolved (context : Context) : Reference → Fault → Prop
  | symbol {index : Nat} {row : Symbol} (hrow : context.symbols.get? index = some row)
      (hnone : row.address = Option.none) :
      Unresolved context (.symbol index) (.undefinedSymbol row.name)
  | literal {index : Nat} {row : Literal} (hrow : context.literals.get? index = some row)
      (hnone : row.address = Option.none) :
      Unresolved context (.literal index) (.unplacedLiteral row.text)

/-- A record that has no word, and what is said about it. -/
inductive Record.Unencodable (context : Context) : Record → Fault → Prop
  | unresolved {opcode : Opcode} {register : Nat} {reference : Reference} {fault : Fault}
      (h : reference.Unresolved context fault) :
      Unencodable context (.instruction opcode register reference) fault
  | address {opcode : Opcode} {register address : Nat} {reference : Reference}
      (hstands : reference.StandsFor context address) (hlarge : maxAddressField < address) :
      Unencodable context (.instruction opcode register reference) (.overflow ⟨.address, address⟩)
  | constant {value : Nat} (hlarge : maxAddressField < value) :
      Unencodable context (.declaration .constant value) (.overflow ⟨.constant, value⟩)

/-- No index is to blame, and no register. -/
private theorem Record.Unencodable.ne {context : Context} {record : Record} {fault : Fault}
    (h : record.Unencodable context fault) (value : Nat) :
    fault ≠ .danglingSymbol value ∧ fault ≠ .danglingLiteral value ∧
      fault ≠ .overflow ⟨.register, value⟩ := by
  cases h with
  | unresolved hunresolved => cases hunresolved <;> simp
  | address => simp
  | constant => simp

namespace Context

variable {context moved after final : Context} {operand? : Option String} {reference : Reference}
  {record : Record} {address : Nat} {fault : Fault}

/-- A row that an operand is entered in is there for good. -/
theorem Referred.within (h : moved.Referred operand? reference after) (hgrows : after.Grows final) :
    reference.Within final := by
  cases h with
  | absent => trivial
  | constant => trivial
  | symbol =>
    obtain ⟨hmem, hindex⟩ := SymbolTable.index_of_entered hgrows.names
    rw [Reference.Within, hindex, ← SymbolTable.get?_isSome_iff, SymbolTable.get?_index]
    exact SymbolTable.find?_isSome_iff.mpr hmem
  | literal =>
    obtain ⟨hmem, hindex⟩ := LiteralTable.index_of_interned hgrows.texts
    rw [Reference.Within, hindex, ← LiteralTable.get?_isSome_iff, LiteralTable.get?_index]
    exact LiteralTable.find?_isSome_iff.mpr hmem

/-! ### Encoding them -/

theorem resolve_eq_ok_iff :
    context.resolve reference = .ok address ↔ reference.StandsFor context address := by
  constructor
  · exact standsFor_of_resolve
  · intro h
    cases h with
    | symbol hrow haddress => simp [resolve, hrow, haddress]
    | literal hrow haddress => simp [resolve, hrow, haddress]
    | constant => rfl
    | none => rfl

private theorem resolve_eq_error_iff (hwithin : reference.Within context) :
    context.resolve reference = .error fault ↔ reference.Unresolved context fault := by
  constructor
  · intro h
    cases reference with
    | symbol index =>
      obtain ⟨row, hrow⟩ := Option.isSome_iff_exists.mp
        ((context.symbols.get?_isSome_iff index).mpr hwithin)
      cases haddress : row.address with
      | some address => simp [resolve, hrow, haddress] at h
      | none =>
        obtain rfl : .undefinedSymbol row.name = fault := by
          simpa [resolve, hrow, haddress] using h
        exact .symbol hrow haddress
    | literal index =>
      obtain ⟨row, hrow⟩ := Option.isSome_iff_exists.mp
        ((context.literals.get?_isSome_iff index).mpr hwithin)
      cases haddress : row.address with
      | some address => simp [resolve, hrow, haddress] at h
      | none =>
        obtain rfl : .unplacedLiteral row.text = fault := by
          simpa [resolve, hrow, haddress] using h
        exact .literal hrow haddress
    | constant value => cases h
    | none => cases h
  · intro h
    cases h with
    | symbol hrow hnone => simp [resolve, hrow, hnone]
    | literal hrow hnone => simp [resolve, hrow, hnone]

theorem encode_instruction_eq_error_iff {opcode : Opcode} {register : Nat}
    (hregister : register ≤ maxRegisterField) :
    context.encode (.instruction opcode register reference) = .error fault ↔
      context.resolve reference = .error fault ∨ ∃ address,
        context.resolve reference = .ok address ∧ maxAddressField < address ∧
          fault = .overflow ⟨.address, address⟩ := by
  rw [encode]
  cases context.resolve reference with
  | error other => simp
  | ok address =>
    by_cases hfits : address ≤ maxAddressField
    · simp [Word.instruction, hregister, hfits, Except.map, Except.mapError, Nat.not_lt.mpr hfits]
    · simp [Word.instruction, hregister, hfits, Except.map, Except.mapError, Nat.lt_of_not_le hfits,
        eq_comm]

theorem encode_constant_eq_error_iff {value : Nat} :
    context.encode (.declaration .constant value) = .error fault ↔
      maxAddressField < value ∧ fault = .overflow ⟨.constant, value⟩ := by
  rw [encode]
  by_cases hfits : value ≤ maxAddressField
  · simp [Word.constant, hfits, Except.map, Except.mapError, Nat.not_lt.mpr hfits]
  · simp [Word.constant, hfits, Except.map, Except.mapError, Nat.lt_of_not_le hfits, eq_comm]

/-- The faults of records that are within the tables. -/
theorem encode_eq_error_iff (hwithin : record.Within context) :
    context.encode record = .error fault ↔ record.Unencodable context fault := by
  cases record with
  | directive word operand =>
    refine ⟨fun h => ?_, fun h => ?_⟩
    · cases h
    · cases h
  | declaration word value =>
    cases word with
    | storage =>
      refine ⟨fun h => ?_, fun h => ?_⟩
      · cases h
      · cases h
    | constant =>
      rw [encode_constant_eq_error_iff]
      constructor
      · rintro ⟨hlarge, rfl⟩
        exact .constant hlarge
      · rintro ⟨⟩
        rename_i hlarge
        exact ⟨hlarge, rfl⟩
  | instruction opcode register reference =>
    rw [encode_instruction_eq_error_iff hwithin.1, resolve_eq_error_iff hwithin.2]
    constructor
    · rintro (hunresolved | ⟨address, hresolve, hlarge, rfl⟩)
      · exact .unresolved hunresolved
      · exact .address (resolve_eq_ok_iff.mp hresolve) hlarge
    · intro h
      cases h with
      | unresolved hunresolved => exact .inl hunresolved
      | address hstands hlarge => exact .inr ⟨_, resolve_eq_ok_iff.mpr hstands, hlarge, rfl⟩

/-- The lines of what the encoding notes increase as those of the records do. -/
private theorem image_diagnostics_pairwise {records : List (Located Record)}
    (h : records.Pairwise fun earlier later => earlier.line < later.line) :
    (context.image records).diagnostics.Pairwise fun earlier later =>
      earlier.line < later.line := by
  induction records with
  | nil => exact .nil
  | cons record rest ih =>
    obtain ⟨hfirst, hrest⟩ := List.pairwise_cons.mp h
    rw [image_cons]
    refine List.pairwise_append.mpr ⟨?_, ih hrest, fun earlier hearlier later hlater => ?_⟩
    · rw [image_singleton]
      split <;> simp
    · obtain ⟨first, hmem, hline, -⟩ := exists_record_of_mem_diagnostics hearlier
      obtain ⟨other, hother, hlater, -⟩ := exists_record_of_mem_diagnostics hlater
      rw [hline, hlater, List.mem_singleton.mp hmem]
      exact hfirst other hother

/-- A record that gives an error gives no word, and neither does another record of its line. -/
private theorem line_ne_of_encode_eq_error {records : List (Located Record)}
    {located : Located Record} (h : records.Pairwise fun earlier later => earlier.line < later.line)
    (hmem : located ∈ records) (hencode : context.encode located.content = .error fault) :
    ∀ word ∈ (context.image records).words, word.line ≠ located.line := by
  have himage : (context.image records).onLine located.line = context.image [located] :=
    image_onLine h hmem
  rw [image_singleton, hencode] at himage
  simpa [Image.onLine, List.filter_eq_nil_iff] using congrArg Image.words himage

end Context

/-! ### Whole programs -/

/-- What the encoding notes about the records of a program. -/
def Assembly.encodingDiagnostics (assembly : Assembly) : List Diagnostic :=
  (assembly.context.image assembly.records).diagnostics

/-- The records of a program are within its tables, and what the encoding notes follows from
them. -/
structure Intact (text : String) : Prop where
  within : ∀ record ∈ (assemble text).records, record.content.Within (assemble text).context
  /-- What is said about a program comes from its reading, and after that from its encoding. -/
  diagnostics : (assemble text).diagnostics =
    (scanText text {}).1.diagnostics ++ (assemble text).encodingDiagnostics
  mem_iff : ∀ diagnostic, diagnostic ∈ (assemble text).encodingDiagnostics ↔
    ∃ record ∈ (assemble text).records, ∃ fault,
      record.content.Unencodable (assemble text).context fault ∧
        diagnostic = ⟨record.line, .error, fault⟩
  never : ∀ diagnostic ∈ (assemble text).encodingDiagnostics, ∀ value,
    diagnostic.fault ≠ .danglingSymbol value ∧ diagnostic.fault ≠ .danglingLiteral value ∧
      diagnostic.fault ≠ .overflow ⟨.register, value⟩
  increasing : (assemble text).encodingDiagnostics.Pairwise fun earlier later =>
    earlier.line < later.line
  wordless : ∀ diagnostic ∈ (assemble text).encodingDiagnostics,
    ∀ word ∈ (assemble text).words, word.line ≠ diagnostic.line

/-- The records of a program are within the tables that it has in the end. -/
theorem within_of_mem_records {text : String} {record : Located Record}
    (h : record ∈ (assemble text).records) :
    record.content.Within (assemble text).context := by
  cases hcontent : record.content with
  | directive word operand => trivial
  | declaration word value => trivial
  | instruction opcode register reference =>
    obtain ⟨line, statement, moved, after, -, -, -, hregister, hrefer, hgrows⟩ :=
      exists_referred_of_mem_records h hcontent
    exact ⟨Operands.registerField_le hregister, hrefer.within hgrows⟩

/-- What the encoding notes about a program are the faults of its records. -/
theorem mem_encodingDiagnostics_iff {text : String} {diagnostic : Diagnostic} :
    diagnostic ∈ (assemble text).encodingDiagnostics ↔
      ∃ record ∈ (assemble text).records, ∃ fault,
        record.content.Unencodable (assemble text).context fault ∧
          diagnostic = ⟨record.line, .error, fault⟩ := by
  constructor
  · intro h
    obtain ⟨record, hrecord, hline, hencode⟩ := Context.exists_record_of_mem_diagnostics h
    rw [Context.encode_eq_error_iff (within_of_mem_records hrecord)] at hencode
    have hsevere : diagnostic.severity = .error :=
      beq_iff_eq.mp (Context.isError_of_mem_image h)
    refine ⟨record, hrecord, diagnostic.fault, hencode, ?_⟩
    rw [← hline, ← hsevere]
  · rintro ⟨record, hrecord, fault, hfault, rfl⟩
    rw [← Context.encode_eq_error_iff (within_of_mem_records hrecord)] at hfault
    exact Context.mem_diagnostics_of_encode_eq_error hrecord hfault

/-- Every program is intact. -/
theorem intact_assemble (text : String) : Intact text where
  within _ := within_of_mem_records
  diagnostics := assemble_diagnostics text
  mem_iff _ := mem_encodingDiagnostics_iff
  never diagnostic hmem value := by
    obtain ⟨record, -, fault, hfault, rfl⟩ := mem_encodingDiagnostics_iff.mp hmem
    exact hfault.ne value
  increasing := Context.image_diagnostics_pairwise (records_assemble_pairwise text)
  wordless diagnostic hmem := by
    obtain ⟨record, hrecord, fault, hfault, rfl⟩ := mem_encodingDiagnostics_iff.mp hmem
    rw [← Context.encode_eq_error_iff (within_of_mem_records hrecord)] at hfault
    exact Context.line_ne_of_encode_eq_error (records_assemble_pairwise text) hrecord hfault

end Assembler
