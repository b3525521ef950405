import Assembler.Proofs.Assembly.Event
import Assembler.Proofs.Assembly.Image
import Assembler.Proofs.Text.Name

/-!
# From source line to machine word

A record keeps the index that its operand had when the line was read.  Much may happen to the
tables before the record is encoded: rows are added, names are bound again, pools are placed.  The
index denotes the operand of the line all the same, because rows are only added behind.  So the
word of an instruction holds the address of the last binding of its symbol, wherever in the program
that binding stands, or the one address at which its literal is placed.

## Main definitions

* `Assembly.encodingOn` : what the encoding says on a line.
* `Image.Encodes` : the word or the error of an instruction, given the address of its operand.

## Main results

* `encodingOn_of_memory_operand` : the encoding of every instruction that has a symbol or a literal
  as its memory operand.
-/

namespace Assembler

/-- What the encoding says on a line: words, and errors of the encoding. -/
def Assembly.encodingOn (assembly : Assembly) (line : Nat) : Image :=
  ⟨assembly.words.filter (·.line == line),
    (assembly.context.image assembly.records).diagnostics.filter (·.line == line)⟩

/-- An image is that of an instruction whose operand has an address, or has none. -/
def Image.Encodes (image : Image) (record : Located Record) (opcode : Opcode) (register : Nat)
    (address? : Option Nat) (missing : Fault) : Prop :=
  match address? with
  | none => image = ⟨[], [⟨record.line, .error, missing⟩]⟩
  | some address =>
    if address ≤ 999 then
      ∃ word : Word, image = ⟨[⟨record.line, record.address, word⟩], []⟩ ∧
        word.operation = opcode.code ∧ word.register = register ∧ word.address = address
    else image = ⟨[], [⟨record.line, .error, .overflow ⟨.address, address⟩⟩]⟩

/-! ### Registers -/

private theorem Condition.code_le (condition : Condition) : condition.code ≤ maxRegisterField := by
  cases condition <;> decide

private theorem Register.code_le (register : Register) : register.code ≤ maxRegisterField := by
  cases register <;> decide

private theorem Opcode.registerField?_le {opcode : Opcode} {operand : String} {field : Nat}
    (h : opcode.registerField? operand = some field) : field ≤ maxRegisterField := by
  rw [registerField?] at h
  dsimp only at h
  split at h
  · rw [← Option.some.inj h]
    exact Condition.code_le _
  · rw [← Option.some.inj h]
    exact Register.code_le _
  · rename_i c _ _ _
    split_ifs at h with hdigit hletter
    · have hupper : c.toNat ≤ 57 := by
        rw [Char.isDigit, Bool.and_eq_true, decide_eq_true_eq, decide_eq_true_eq] at hdigit
        exact hdigit.2
      have hfield : c.toNat - 48 = field := Option.some.inj h
      rw [maxRegisterField]
      omega
    · rw [Bool.and_eq_true, decide_eq_true_eq] at hletter
      rw [← Option.some.inj h]
      exact hletter.2
  · exact absurd h (by simp)

theorem Operands.registerField_le {operands : Operands} {opcode : Opcode} {register : Nat}
    (h : operands.registerField opcode = .ok register) : register ≤ maxRegisterField := by
  cases operands with
  | none => rw [← Except.ok.inj h]; exact Nat.zero_le _
  | one operand => rw [← Except.ok.inj h]; exact Nat.zero_le _
  | two first second =>
    rw [registerField] at h
    cases hfield : opcode.registerField? first with
    | none => simp [hfield] at h
    | some field =>
      rw [hfield] at h
      rw [← Except.ok.inj h]
      exact Opcode.registerField?_le hfield

/-! ### The record of an instruction -/

/-- The record of a line is its result, at the address of the line. -/
theorem Trace.eq_of_mem_records_ofLine {number address : Nat} {warnings : List Fault}
    {result : Except Fault (Option Record)} {record : Located Record}
    (h : record ∈ (ofLine number address warnings result).records) :
    record.address = address ∧ result = .ok (some record.content) := by
  cases result with
  | error fault => exact absurd h List.not_mem_nil
  | ok record? =>
    cases record? with
    | none => exact absurd h List.not_mem_nil
    | some content =>
      rw [List.mem_singleton.mp h]
      exact ⟨rfl, rfl⟩

/-- A record that a line leaves is that of its statement, at the location counter before it; or it
is that of an opening START. -/
theorem Scan.Stepped.record_eq {scan : Scan} {number : Nat} {line : String}
    {outcome : Trace × Scan} {record : Located Record} (h : scan.Stepped number line outcome)
    (hmem : record ∈ outcome.1.records) :
    (∃ label operands,
        SourceLine.ofText line = .ok (.statement ⟨label, .directive .start, operands⟩)) ∨
      record.address = scan.context.location ∧
        (scan.context.execute (SourceLine.ofText line)).result = .ok (some record.content) ∧
        outcome.2.context = (scan.context.execute (SourceLine.ofText line)).context := by
  cases h with
  | idle => exact absurd hmem List.not_mem_nil
  | opened _ _ hread => exact .inl ⟨_, _, hread⟩
  | proceeded =>
    obtain ⟨haddress, hresult⟩ := Trace.eq_of_mem_records_ofLine hmem
    exact .inr ⟨haddress, hresult, rfl⟩

/-- An instruction that is executed has its operand entered in the tables. -/
theorem Context.Executed.instruction {context : Context} {statement : Statement} {effect : Effect}
    {opcode : Opcode} {content : Record}
    (h : context.Executed (.ok (.statement statement)) effect)
    (hmnemonic : statement.mnemonic = .operation opcode)
    (hresult : effect.result = .ok (some content)) :
    ∃ moved register reference, content = .instruction opcode register reference ∧
      statement.operands.registerField opcode = .ok register ∧
      Context.Referred moved statement.operands.memory? reference effect.context := by
  cases h with
  | @performed _ after result _ hperformed =>
    dsimp only at hresult ⊢
    cases hperformed with
    | refused => simp [Except.map] at hresult
    | full => simp [Except.map] at hresult
    | spoiled => simp [Except.map] at hresult
    | unplaced => simp [Except.map] at hresult
    | constant hother => simp [hother] at hmnemonic
    | storage hother => simp [hother] at hmnemonic
    | origin hother => simp [hother] at hmnemonic
    | placed hother => simp [hother] at hmnemonic
    | @instruction other register reference _ hother _ hregister hrefer =>
      obtain rfl : other = opcode := by simpa [hother] using hmnemonic
      obtain rfl : Record.instruction other register reference = content := by
        simpa [Except.map] using hresult
      exact ⟨_, register, reference, rfl, hregister, hrefer⟩
  | incomplete _ hother => simp [hother] at hmnemonic
  | valueless hother => simp [hother] at hmnemonic
  | equated hother => simp [hother] at hmnemonic

/-- The record of an instruction is that of a statement whose operand was entered in the tables. -/
private theorem Context.Executed.exists_referred {context : Context}
    {source : Except Fault SourceLine}
    {effect : Effect} {opcode : Opcode} {register : Nat} {reference : Reference}
    (h : context.Executed source effect)
    (hresult : effect.result = .ok (some (.instruction opcode register reference))) :
    ∃ statement moved, source = .ok (.statement statement) ∧
      statement.mnemonic = .operation opcode ∧
      statement.operands.registerField opcode = .ok register ∧
      Context.Referred moved statement.operands.memory? reference effect.context := by
  cases h with
  | unread => cases hresult
  | literal => cases hresult
  | @performed statement after result _ hperformed =>
    obtain rfl : result = .ok (.instruction opcode register reference) := by
      cases result with
      | error fault => cases hresult
      | ok record =>
        cases hresult
        rfl
    cases hperformed with
    | instruction hmnemonic _ hregister hrefer =>
      exact ⟨statement, _, rfl, hmnemonic, hregister, hrefer⟩
  | incomplete => cases hresult
  | valueless => cases hresult
  | equated => cases hresult

/-! ### The operand in the end -/

namespace Context

/-- A name does not begin like a literal. -/
theorem isLiteralOperand_of_isName {operand : String}
    (h : Text.isName operand.toList = true) : isLiteralOperand operand = false := by
  rw [isLiteralOperand, beginsLiteral]
  cases htext : operand.toList with
  | nil => rfl
  | cons c rest =>
    rw [htext, Text.isName, Bool.and_eq_true] at h
    have hne : c ≠ '=' := by
      rintro rfl
      exact absurd h.1 (by decide)
    simp [hne]

/-- A name refers to the symbol of that name. -/
theorem refer_of_isName (context : Context) {operand : String}
    (h : Text.isName operand.toList = true) :
    context.refer operand = .ok (.symbol (context.symbols.index operand),
      { context with symbols := context.symbols.enter operand }) := by
  have hliteral : (beginsLiteral operand && 1 < operand.toList.length) = false :=
    isLiteralOperand_of_isName h
  rw [refer, hliteral, Text.isNumeral_of_isName h, h]
  rfl

/-- A literal is no numeral. -/
theorem readNumeral?_of_isLiteralOperand {limit : Nat} {operand : String}
    (h : isLiteralOperand operand = true) : Text.readNumeral? limit operand.toList = none := by
  rw [isLiteralOperand, beginsLiteral, Bool.and_eq_true] at h
  cases htext : operand.toList with
  | nil => rfl
  | cons c rest =>
    obtain rfl : c = '=' := by simpa [htext] using h.1
    exact Text.readNumeral?_eq_none (by decide)

variable {context after final : Context} {token : String} {reference : Reference}

/-- A symbol that was referred to stands for its address in the end. -/
theorem Referred.resolve_symbol (h : context.Referred (some token) reference after)
    (hgrows : after.Grows final) (htoken : Text.isName token.toList = true) :
    final.resolve reference =
      match final.symbols.addressOf? token with
      | some address => .ok address
      | none => .error (.undefinedSymbol token) := by
  cases h with
  | literal hliteral =>
    rw [isLiteralOperand_of_isName htoken] at hliteral
    exact absurd hliteral (by simp)
  | constant hvalue =>
    rw [Text.readNumeral?_of_isName htoken] at hvalue
    exact absurd hvalue (by simp)
  | symbol =>
    obtain ⟨hmem, hindex⟩ := SymbolTable.index_of_entered hgrows.names
    rw [hindex]
    exact Context.resolve_symbol hmem

/-- A literal that was referred to stands for its address in the end. -/
theorem Referred.resolve_literal (h : context.Referred (some token) reference after)
    (hgrows : after.Grows final) (htoken : isLiteralOperand token = true) :
    final.resolve reference =
      match final.literals.addressOf? token with
      | some address => .ok address
      | none => .error (.unplacedLiteral token) := by
  cases h with
  | literal =>
    obtain ⟨hmem, hindex⟩ := LiteralTable.index_of_interned hgrows.texts
    rw [hindex]
    exact Context.resolve_literal hmem
  | constant hvalue =>
    rw [readNumeral?_of_isLiteralOperand htoken] at hvalue
    exact absurd hvalue (by simp)
  | symbol hname =>
    rw [isLiteralOperand_of_isName hname] at htoken
    exact absurd htoken (by simp)

/-- The image of an instruction follows from what its operand stands for. -/
theorem image_encodes {record : Located Record} {opcode : Opcode} {register : Nat}
    {address? : Option Nat} {missing : Fault}
    (hcontent : record.content = .instruction opcode register reference)
    (hregister : register ≤ maxRegisterField)
    (hresolve : final.resolve reference =
      match address? with
      | some address => .ok address
      | none => .error missing) :
    (final.image [record]).Encodes record opcode register address? missing := by
  rw [image_singleton, hcontent, encode, hresolve]
  cases address? with
  | none => rfl
  | some address =>
    dsimp only [Image.Encodes]
    split_ifs with hfits
    · have hfits' : address ≤ maxAddressField := hfits
      rw [Word.instruction, dif_pos hregister, dif_pos hfits']
      exact ⟨_, rfl, rfl, rfl, rfl⟩
    · have hfits' : ¬address ≤ maxAddressField := hfits
      rw [Word.instruction, dif_pos hregister, dif_neg hfits']
      rfl

end Context

/-! ### Whole programs -/

/-- Every record of a program was left by the line whose number it carries, after the lines before
it, and what was known then has only grown by the end. -/
theorem exists_step_of_mem_assemble {text : String} {record : Located Record}
    (h : record ∈ (assemble text).records) :
    ∃ before line after, programLines text = before ++ line :: after ∧
      record.line = before.length + 1 ∧
      record ∈ ((Scan.run 1 before ⟨.opening, {}⟩).2.step record.line line).1.records ∧
      ((Scan.run 1 before ⟨.opening, {}⟩).2.step record.line line).2.context.Grows
        (assemble text).context := by
  rw [assemble_records] at h
  obtain ⟨before, line, after, hlines, hnumber, hmem⟩ := Scan.exists_step_of_mem_records h
  rw [← hnumber] at hmem
  refine ⟨before, line, after, hlines, by omega, hmem, ?_⟩
  -- the lines after this one, then the end of the program
  refine Context.Grows.trans ?_ (grows_assemble text)
  rw [programScan, hlines, Scan.run_append, ← hnumber]
  exact Scan.grows_run _ _ _

/-- Every record of a program was left by the line whose number it carries, and what was known
after that line has only grown by the end. -/
theorem exists_stepped_of_mem_records {text : String} {record : Located Record}
    (h : record ∈ (assemble text).records) :
    ∃ position line scan outcome, record.line = position + 1 ∧
      (programLines text)[position]? = some line ∧
      Scan.Stepped scan record.line line outcome ∧ record ∈ outcome.1.records ∧
      outcome.2.context.Grows (assemble text).context := by
  obtain ⟨before, line, after, hlines, hnumber, hmem, hgrows⟩ := exists_step_of_mem_assemble h
  refine ⟨before.length, line, _, _, hnumber, ?_, Scan.stepped_step _ _ _, hmem, hgrows⟩
  rw [hlines, List.getElem?_append_right (Nat.le_refl _), Nat.sub_self]
  rfl

/-- The record of an instruction was left by the statement of its line, and the tables in which the
operand was entered then have only grown by the end. -/
theorem exists_referred_of_mem_records {text : String} {record : Located Record}
    (h : record ∈ (assemble text).records) {opcode : Opcode} {register : Nat}
    {reference : Reference} (hcontent : record.content = .instruction opcode register reference) :
    ∃ line statement moved after, (programLines text)[record.line - 1]? = some line ∧
      SourceLine.ofText line = .ok (.statement statement) ∧
      statement.mnemonic = .operation opcode ∧
      statement.operands.registerField opcode = .ok register ∧
      Context.Referred moved statement.operands.memory? reference after ∧
      after.Grows (assemble text).context := by
  obtain ⟨position, line, scan, outcome, hposition, hline, hstepped, hmem, hgrows⟩ :=
    exists_stepped_of_mem_records h
  have hnumber : (programLines text)[record.line - 1]? = some line := by
    rwa [hposition, Nat.add_sub_cancel]
  cases hstepped with
  | idle => exact absurd hmem List.not_mem_nil
  | opened =>
    -- the record of an opening START is no instruction
    rw [List.mem_singleton.mp hmem] at hcontent
    cases hcontent
  | proceeded =>
    obtain ⟨-, hresult⟩ := Trace.eq_of_mem_records_ofLine hmem
    rw [hcontent] at hresult
    obtain ⟨statement, moved, hread, hmnemonic, hregister, hrefer⟩ :=
      (Context.executed_execute scan.context _).exists_referred hresult
    exact ⟨line, statement, moved, _, hnumber, hread, hmnemonic, hregister, hrefer, hgrows⟩

/-- What the encoding says on the line of a record is the image of that record. -/
theorem encodingOn_eq {text : String} {record : Located Record}
    (h : record ∈ (assemble text).records) :
    (assemble text).encodingOn record.line = (assemble text).context.image [record] :=
  Context.image_onLine (records_assemble_pairwise text) h

/-- The encoding of an instruction whose memory operand is a symbol follows from the last binding
of that symbol in the whole program, and that of an instruction whose memory operand is a literal
follows from the one address at which that literal is placed. -/
theorem encodingOn_of_memory_operand (text : String) {number : Nat} {line token : String}
    {statement : Statement} {opcode : Opcode} {record : Located Record}
    (hline : (programLines text)[number]? = some line)
    (hread : SourceLine.ofText line = .ok (.statement statement))
    (hmnemonic : statement.mnemonic = .operation opcode)
    (htoken : statement.operands.memory? = some token)
    (hrecord : record ∈ (assemble text).records) (hnumber : record.line = number + 1) :
    ∃ register, statement.operands.registerField opcode = .ok register ∧
      (Text.isName token.toList = true →
        ((assemble text).encodingOn record.line).Encodes record opcode register
          (lastBinding? (programBindings text) token) (.undefinedSymbol token)) ∧
      (isLiteralOperand token = true →
        ((programPlacements text).map Prod.fst).Nodup ∧
        ((assemble text).encodingOn record.line).Encodes record opcode register
          ((programPlacements text).lookup token) (.unplacedLiteral token)) := by
  obtain ⟨position, other, scan, outcome, hposition, hother, hstepped, hmem, hgrows⟩ :=
    exists_stepped_of_mem_records hrecord
  obtain rfl : position = number := by omega
  obtain rfl : other = line := Option.some.inj (hother.symm.trans hline)
  obtain ⟨label, operands, hstart⟩ | ⟨-, hresult, hcontext⟩ := hstepped.record_eq hmem
  · -- the line is no START
    rw [hread] at hstart
    obtain rfl := SourceLine.statement.inj (Except.ok.inj hstart)
    exact absurd hmnemonic (by simp)
  have hexecuted := Context.executed_execute scan.context (SourceLine.ofText other)
  rw [hcontext] at hgrows
  rw [hread] at hexecuted hresult hgrows
  obtain ⟨moved, register, reference, hcontent, hregister, hrefer⟩ :=
    hexecuted.instruction hmnemonic hresult
  rw [htoken] at hrefer
  have hfits := Operands.registerField_le hregister
  refine ⟨register, hregister, fun hname => ?_, fun hliteral => ?_⟩
  · rw [encodingOn_eq hrecord, ← addressOf?_assemble]
    exact Context.image_encodes hcontent hfits (hrefer.resolve_symbol hgrows hname)
  · have horderly : (assemble text).context.literals.Orderly := orderly_assemble text
    rw [← placements_assemble, encodingOn_eq hrecord, ← horderly.addressOf?_eq_lookup]
    exact ⟨horderly.placements_nodup,
      Context.image_encodes hcontent hfits (hrefer.resolve_literal hgrows hliteral)⟩

/-- A program that uses a symbol before it binds it twice, and a literal that its end places. -/
def forwardProgram : String :=
  " MOVER AREG X\nX DC 5\nX EQU 7\n ADD BREG ='1'"

/-- The second binding of the symbol holds, and the literal stands behind the program. -/
theorem encodingOn_forwardProgram :
    ((assemble forwardProgram).encodingOn 1).Encodes
        ⟨1, 0, .instruction .mover 1 (.symbol 1)⟩ .mover 1 (some 7) (.undefinedSymbol "X") ∧
      ((assemble forwardProgram).encodingOn 4).Encodes
        ⟨4, 2, .instruction .add 2 (.literal 1)⟩ .add 2 (some 3) (.unplacedLiteral "='1'") := by
  have hmover : (programLines forwardProgram)[0]? = some " MOVER AREG X" ∧
      SourceLine.ofText " MOVER AREG X" =
        .ok (.statement ⟨none, .operation .mover, .two "AREG" "X"⟩) ∧
      ⟨1, 0, .instruction .mover 1 (.symbol 1)⟩ ∈ (assemble forwardProgram).records := by
    decide +kernel
  have hadd : (programLines forwardProgram)[3]? = some " ADD BREG ='1'" ∧
      SourceLine.ofText " ADD BREG ='1'" =
        .ok (.statement ⟨none, .operation .add, .two "BREG" "='1'"⟩) ∧
      ⟨4, 2, .instruction .add 2 (.literal 1)⟩ ∈ (assemble forwardProgram).records := by
    decide +kernel
  have hbinding : lastBinding? (programBindings forwardProgram) "X" = some 7 := by decide +kernel
  have hplace : (programPlacements forwardProgram).lookup "='1'" = some 3 := by decide +kernel
  constructor
  · obtain ⟨register, hregister, hsymbol, -⟩ := encodingOn_of_memory_operand forwardProgram
      hmover.1 hmover.2.1 rfl rfl hmover.2.2 rfl
    have hfield : Operands.registerField (.two "AREG" "X") .mover = .ok 1 := by decide +kernel
    obtain rfl : 1 = register := Except.ok.inj (hfield.symm.trans hregister)
    rw [← hbinding]
    exact hsymbol (by decide)
  · obtain ⟨register, hregister, -, hliteral⟩ := encodingOn_of_memory_operand forwardProgram
      hadd.1 hadd.2.1 rfl rfl hadd.2.2 rfl
    have hfield : Operands.registerField (.two "BREG" "='1'") .add = .ok 2 := by decide +kernel
    obtain rfl : 2 = register := Except.ok.inj (hfield.symm.trans hregister)
    rw [← hplace]
    exact (hliteral (by decide)).2

end Assembler
