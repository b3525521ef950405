import Assembler.Proofs.Assembly.Image
import Assembler.Proofs.Assembly.Pending
import Assembler.Proofs.Text.Line

/-!
# Programs that assemble

A program has machine code exactly when no diagnostic is an error.  Its rows are then those of the
records that stand for words, in order, and both tables are complete, even the rows that no
instruction refers to.  Otherwise the report on the program lists its errors, those of the reading
before those of the encoding, and no warning.

## Main definitions

* `Reference.StandsFor`, `Record.Realized` : what operands stand for and words say, read off the
  tables.
* `Verdict` : what assembling a program comes to.

## Main results

* `verdict_assembleProgram` : the verdict on every program.
-/

namespace Assembler

/-- The number that a memory operand stands for.  A row without an address stands for none. -/
inductive Reference.StandsFor (context : Context) : Reference → Nat → Prop
  | symbol {index address : Nat} {row : Symbol} (hrow : context.symbols.get? index = some row)
      (haddress : row.address = some address) : StandsFor context (.symbol index) address
  | literal {index address : Nat} {row : Literal} (hrow : context.literals.get? index = some row)
      (haddress : row.address = some address) : StandsFor context (.literal index) address
  | constant (value : Nat) : StandsFor context (.constant value) value
  | none : StandsFor context .none 0

/-- The word that a record stands for. -/
inductive Record.Realized (context : Context) : Record → Word → Prop
  | constant {value : Nat} {word : Word} (hoperation : word.operation = 0)
      (hregister : word.register = 0) (haddress : word.address = value) :
      Realized context (.declaration .constant value) word
  | instruction {opcode : Opcode} {register : Nat} {reference : Reference} {word : Word}
      (hoperation : word.operation = opcode.code) (hregister : word.register = register)
      (haddress : reference.StandsFor context word.address) :
      Realized context (.instruction opcode register reference) word

/-- What assembling a program comes to. -/
structure Verdict (text : String) : Prop where
  ok_iff : (∃ code, assembleProgram text = .ok code) ↔
    ∀ diagnostic ∈ (assemble text).diagnostics, diagnostic.severity ≠ .error
  rows : ∀ code, assembleProgram text = .ok code →
    Text.lines code.toList = (assemble text).words.map fun word => word.content.text.toList
  words : ∀ code, assembleProgram text = .ok code →
    List.Forall₂ (fun record word => word.line = record.line ∧ word.address = record.address ∧
        record.content.Realized (assemble text).context word.content)
      ((assemble text).records.filter fun record => record.content.wordCount == 1)
      (assemble text).words
  symbols : ∀ code, assembleProgram text = .ok code →
    ∀ symbol ∈ (assemble text).context.symbols.symbols, symbol.address.isSome
  literals : ∀ code, assembleProgram text = .ok code →
    ∀ literal ∈ (assemble text).context.literals.literals, literal.address.isSome
  message : ∀ message, assembleProgram text = .error message →
    message = "assembly failed" ++ String.join
      (((scanText text {}).1.diagnostics.filter Diagnostic.isError ++
        ((assemble text).context.image (assemble text).records).diagnostics).map fun error =>
          "\n  " ++ error.text)
  count : (assemble text).words.length +
      ((assemble text).context.image (assemble text).records).diagnostics.length =
    ((assemble text).records.map fun record => record.content.wordCount).sum

/-! ### Rows of machine code -/

theorem Text.isDigit_of_mem_padded {width n : Nat} {c : Char} (h : c ∈ (padded width n).toList) :
    c.isDigit = true := by
  rw [padded, String.toList_ofList] at h
  rcases List.mem_append.mp h with hzero | hdigit
  · rw [List.eq_of_mem_replicate hzero]
    rfl
  · exact Nat.isDigit_of_mem_toDigits (by decide) (by decide) hdigit

/-- A word is printed with digits, blanks and a sign. -/
theorem Word.mem_text {word : Word} {c : Char} (h : c ∈ word.text.toList) :
    c = '+' ∨ c = ' ' ∨ c.isDigit = true := by
  have hcases : (c = '+' ∨ c = ' ') ∨ c ∈ (Text.padded 2 word.operation).toList ∨
      c = ' ' ∨ c ∈ (Text.padded 1 word.register).toList ∨ c = ' ' ∨
        c ∈ (Text.padded 3 word.address).toList := by
    simpa [text, or_assoc] using h
  rcases hcases with (hsign | hblank) | hdigit | hblank | hdigit | hblank | hdigit
  · exact .inl hsign
  · exact .inr (.inl hblank)
  · exact .inr (.inr (Text.isDigit_of_mem_padded hdigit))
  · exact .inr (.inl hblank)
  · exact .inr (.inr (Text.isDigit_of_mem_padded hdigit))
  · exact .inr (.inl hblank)
  · exact .inr (.inr (Text.isDigit_of_mem_padded hdigit))

/-- The rows of machine code are the texts of its words. -/
private theorem Assembly.lines_machineCode (assembly : Assembly) :
    Text.lines assembly.machineCode.toList =
      assembly.words.map fun word => word.content.text.toList := by
  have hrows : ∀ row ∈ assembly.words.map (fun word => word.content.text),
      '\n' ∉ row.toList ∧ row.toList.getLast? ≠ some '\r' := by
    intro row hrow
    obtain ⟨word, -, rfl⟩ := List.mem_map.mp hrow
    constructor
    · intro hfeed
      exact absurd (Word.mem_text hfeed) (by decide)
    · intro hreturn
      exact absurd (Word.mem_text (List.mem_of_getLast? hreturn)) (by decide)
  rw [machineCode, Text.lines_ofLines hrows, List.map_map]
  rfl

/-! ### Words without errors -/

namespace Word

/-- Noting an overflow as a fault makes no word of it. -/
theorem eq_ok_of_noted {made : Except FieldOverflow Word} {word : Word}
    (h : (made.map some).mapError Fault.overflow = .ok (some word)) : made = .ok word := by
  cases made with
  | error overflow => simp [Except.map, Except.mapError] at h
  | ok other => simpa [Except.map, Except.mapError] using h

private theorem of_constant_eq_ok {value : Nat} {word : Word} (h : constant value = .ok word) :
    word.operation = 0 ∧ word.register = 0 ∧ word.address = value := by
  rw [constant] at h
  split_ifs at h
  rw [← Except.ok.inj h]
  exact ⟨rfl, rfl, rfl⟩

private theorem of_instruction_eq_ok {opcode : Opcode} {register address : Nat} {word : Word}
    (h : instruction opcode register address = .ok word) :
    word.operation = opcode.code ∧ word.register = register ∧ word.address = address := by
  rw [instruction] at h
  split_ifs at h
  rw [← Except.ok.inj h]
  exact ⟨rfl, rfl, rfl⟩

end Word

namespace Context

variable {context : Context} {records : List (Located Record)}

theorem standsFor_of_resolve {reference : Reference} {address : Nat}
    (h : context.resolve reference = .ok address) : reference.StandsFor context address := by
  unfold resolve at h
  split at h
  · split at h
    · exact absurd h (by simp)
    · rename_i row hrow
      cases haddress : row.address with
      | none => simp [haddress] at h
      | some place =>
        obtain rfl : place = address := by simpa [haddress] using h
        exact .symbol hrow haddress
  · split at h
    · exact absurd h (by simp)
    · rename_i row hrow
      cases haddress : row.address with
      | none => simp [haddress] at h
      | some place =>
        obtain rfl : place = address := by simpa [haddress] using h
        exact .literal hrow haddress
  · obtain rfl := Except.ok.inj h
    exact .constant _
  · obtain rfl := Except.ok.inj h
    exact .none

/-- The word that a record gives is the one that it stands for. -/
theorem realized_of_encode {record : Record} {word : Word}
    (h : context.encode record = .ok (some word)) : record.Realized context word := by
  cases record with
  | directive other operand => simp [encode] at h
  | declaration other value =>
    cases other with
    | storage => simp [encode] at h
    | constant =>
      obtain ⟨hoperation, hregister, haddress⟩ := Word.of_constant_eq_ok (Word.eq_ok_of_noted h)
      exact .constant hoperation hregister haddress
  | instruction opcode register reference =>
    rw [encode] at h
    cases hresolve : context.resolve reference with
    | error fault => simp [hresolve] at h
    | ok address =>
      rw [hresolve] at h
      obtain ⟨hoperation, hregister, rfl⟩ := Word.of_instruction_eq_ok (Word.eq_ok_of_noted h)
      exact .instruction hoperation hregister (standsFor_of_resolve hresolve)

/-- Whatever the encoding notes is an error. -/
theorem isError_of_mem_image {diagnostic : Diagnostic}
    (h : diagnostic ∈ (context.image records).diagnostics) : diagnostic.isError = true := by
  induction records with
  | nil => exact absurd h List.not_mem_nil
  | cons record rest ih =>
    rw [image_cons] at h
    rcases List.mem_append.mp h with hfirst | hrest
    · rw [image_singleton] at hfirst
      split at hfirst
      · exact absurd hfirst List.not_mem_nil
      · exact absurd hfirst List.not_mem_nil
      · rw [List.mem_singleton.mp hfirst]
        rfl
    · exact ih hrest

/-- Without errors the words are those that the records stand for, in order. -/
private theorem words_realized (h : (context.image records).diagnostics = []) :
    List.Forall₂ (fun record word => word.line = record.line ∧ word.address = record.address ∧
        record.content.Realized context word.content)
      (records.filter fun record => record.content.wordCount == 1)
      (context.image records).words := by
  induction records with
  | nil => exact .nil
  | cons record rest ih =>
    rw [image_cons] at h ⊢
    obtain ⟨hfirst, hrest⟩ := List.append_eq_nil_iff.mp h
    obtain ⟨hword, hnone, -⟩ := @wordCount_of_encode context record.content
    rw [image_singleton] at hfirst ⊢
    cases hencode : context.encode record.content with
    | error fault => simp [hencode] at hfirst
    | ok word? =>
      cases word? with
      | none =>
        rw [List.filter_cons_of_neg (by simp [hnone hencode])]
        exact ih hrest
      | some word =>
        rw [List.filter_cons_of_pos (by simp [hword word hencode])]
        exact .cons ⟨rfl, rfl, realized_of_encode hencode⟩ (ih hrest)

end Context

/-! ### Complete tables -/

/-- There are errors when the reading fails or the encoding notes one. -/
theorem hasErrors_assemble {text : String} :
    (assemble text).hasErrors = false ↔ ¬(scanText text {}).1.Failed ∧
      ((assemble text).context.image (assemble text).records).diagnostics = [] := by
  rw [Assembly.hasErrors, assemble_diagnostics, List.any_append, Bool.or_eq_false_iff,
    List.any_eq_false, List.any_eq_false]
  refine and_congr ?_ ⟨fun hnone => ?_, fun hempty => ?_⟩
  · simp [Trace.Failed]
  · rw [List.eq_nil_iff_forall_not_mem]
    exact fun diagnostic hmem => hnone diagnostic hmem (Context.isError_of_mem_image hmem)
  · rw [hempty]
    exact fun _ hmem => absurd hmem List.not_mem_nil

/-- Without errors every symbol has an address. -/
theorem isSome_address_symbol {text : String} (h : (assemble text).hasErrors = false)
    {symbol : Symbol} (hmem : symbol ∈ (assemble text).context.symbols.symbols) :
    symbol.address.isSome := by
  obtain ⟨hread, hencoded⟩ := hasErrors_assemble.mp h
  have hname : symbol.name ∈ (assemble text).context.symbols.names := List.mem_map_of_mem hmem
  have haddress : (assemble text).context.symbols.addressOf? symbol.name = symbol.address := by
    rw [SymbolTable.addressOf?, SymbolTable.find?_name_of_mem (nodup_names_assemble text) hmem,
      Option.bind_some]
  by_contra hsome
  rw [← haddress, Option.not_isSome_iff_eq_none] at hsome
  rcases (accounted_assemble text).1 symbol.name hname hsome with hfailed | hmentions
  · exact hread hfailed
  · -- the record that refers to the symbol cannot be encoded
    obtain ⟨record, hread, opcode, register, hcontent⟩ := hmentions
    have hrecord : record ∈ (assemble text).records := hread
    have hencode : (assemble text).context.encode record.content =
        .error (.undefinedSymbol symbol.name) := by
      rw [hcontent, Context.encode, Context.resolve_symbol hname, hsome]
    have herror := Context.mem_diagnostics_of_encode_eq_error hrecord hencode
    rw [hencoded] at herror
    exact absurd herror List.not_mem_nil

/-- Without errors every literal has an address. -/
theorem isSome_address_literal {text : String} (h : (assemble text).hasErrors = false)
    {literal : Literal} (hmem : literal ∈ (assemble text).context.literals.literals) :
    literal.address.isSome := by
  have horderly := orderly_assemble text
  have hopen := (accounted_assemble text).2.resolve_left (hasErrors_assemble.mp h).1
  refine horderly.placed literal ?_
  rw [List.take_of_length_le (Nat.sub_eq_zero_iff_le.mp hopen)]
  exact hmem

/-! ### The verdict -/

theorem assembleProgram_eq (text : String) :
    assembleProgram text =
      if (assemble text).hasErrors then .error (assemble text).failure
      else .ok (assemble text).machineCode := by
  rw [assembleProgram, Assembly.usable]
  split_ifs <;> rfl

theorem assembleProgram_eq_ok_iff {text code : String} :
    assembleProgram text = .ok code ↔
      (assemble text).hasErrors = false ∧ (assemble text).machineCode = code := by
  rw [assembleProgram_eq]
  split_ifs with herrors
  · simp [herrors]
  · simp [herrors]

/-- The errors of a program are those of the reading, then those of the encoding. -/
theorem errors_assemble (text : String) :
    (assemble text).errors = (scanText text {}).1.diagnostics.filter Diagnostic.isError ++
      ((assemble text).context.image (assemble text).records).diagnostics := by
  have hencoding : ((assemble text).context.image (assemble text).records).diagnostics.filter
      Diagnostic.isError = ((assemble text).context.image (assemble text).records).diagnostics :=
    List.filter_eq_self.mpr fun _ => Context.isError_of_mem_image
  rw [← hencoding]
  exact List.filter_append _ _

/-- The verdict on every program. -/
theorem verdict_assembleProgram (text : String) : Verdict text where
  ok_iff := by
    have hnone : (assemble text).hasErrors = false ↔
        ∀ diagnostic ∈ (assemble text).diagnostics, diagnostic.severity ≠ .error := by
      simp [Assembly.hasErrors, Diagnostic.isError]
    rw [← hnone]
    constructor
    · rintro ⟨code, hcode⟩
      exact (assembleProgram_eq_ok_iff.mp hcode).1
    · intro herrors
      exact ⟨_, assembleProgram_eq_ok_iff.mpr ⟨herrors, rfl⟩⟩
  rows code hcode := by
    rw [← (assembleProgram_eq_ok_iff.mp hcode).2]
    exact (assemble text).lines_machineCode
  words code hcode := by
    have herrors := (assembleProgram_eq_ok_iff.mp hcode).1
    exact Context.words_realized (hasErrors_assemble.mp herrors).2
  symbols code hcode symbol hmem :=
    isSome_address_symbol (assembleProgram_eq_ok_iff.mp hcode).1 hmem
  literals code hcode literal hmem :=
    isSome_address_literal (assembleProgram_eq_ok_iff.mp hcode).1 hmem
  message message hmessage := by
    rw [assembleProgram_eq] at hmessage
    split_ifs at hmessage with herrors
    rw [← Except.error.inj hmessage, Assembly.failure, errors_assemble]
  count := Context.length_image _ _

example : assembleProgram " START 100\n ADD AREG X\nX DC 7\n END\n" =
    .ok "+ 01 1 101\n+ 00 0 007\n" := by
  decide +kernel

end Assembler
