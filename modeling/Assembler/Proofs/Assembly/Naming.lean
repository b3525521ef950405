import Assembler.Proofs.Assembly.Citation
import Assembler.Proofs.Assembly.Evaluation
import Assembler.Proofs.Assembly.Mention
import Assembler.Proofs.Source.Grammar

/-!
# The names and literals that tables hold

Rows are entered for labels, for operands and for literals that stand alone, and each of them is
looked at in its own way before it is.  What comes into the tables is lawful all the same, after
every line: a symbol has a name, and a literal begins with `=` and is a single word.

Labels are told from mnemonics, and operands are not.  So a mnemonic may well be entered as the name
of a symbol, but it is never bound, in whatever case its letters are.  An instruction with such an
operand is reported, and so is an expression over one.

## Main definitions

* `Text.Named` : the texts that are names.
* `Context.Lawful` : tables that hold lawful names and literals.
* `LawfulNames` : a program whose tables are lawful throughout.

## Main results

* `Scan.lawful_run` : tables are lawful after any lines.
* `lawfulNames_assemble` : so they are for every program, and no mnemonic is ever resolved.
-/

namespace Assembler

/-- A text is a name: a letter or an underscore, and letters, digits and underscores behind it, all
of them ASCII. -/
def Text.Named (text : List Char) : Prop :=
  ∃ c rest, text = c :: rest ∧ (c.isAlpha = true ∨ c = '_') ∧
    ∀ d ∈ rest, d.isAlpha = true ∨ d.isDigit = true ∨ d = '_'

/-- Lawful tables: symbols have names, those with an address are no mnemonics, and literals are
single words behind their sign. -/
structure Context.Lawful (context : Context) : Prop where
  names : ∀ symbol ∈ context.symbols.symbols, Text.Named symbol.name.toList
  bound : ∀ symbol ∈ context.symbols.symbols, symbol.address.isSome = true →
    ¬IsMnemonic symbol.name
  texts : ∀ literal ∈ context.literals.literals, literal.text.toList.head? = some '=' ∧
    ∀ c ∈ literal.text.toList, Text.isBlank c = false ∧ c ≠ ','

/-- The tables of a program are lawful after each of its lines and in the end.  An instruction whose
operand is spelled like a mnemonic has no word, and an ORIGIN or an EQU over such a name has no
record. -/
structure LawfulNames (text : String) : Prop where
  lines : ∀ before after, programLines text = before ++ after →
    (Scan.run 1 before ⟨.opening, {}⟩).2.context.Lawful
  final : (assemble text).context.Lawful
  operands : ∀ record ∈ (assemble text).records, ∀ line statement opcode operand,
    (programLines text)[record.line - 1]? = some line →
    SourceLine.ofText line = .ok (.statement statement) →
    statement.mnemonic = .operation opcode → statement.operands.memory? = some operand →
    IsMnemonic operand →
      (assemble text).encodingOn record.line =
        ⟨[], [⟨record.line, .error, .undefinedSymbol operand⟩]⟩
  expressions : ∀ record ∈ (assemble text).records, ∀ line statement written name,
    (programLines text)[record.line - 1]? = some line →
    SourceLine.ofText line = .ok (.statement statement) →
    statement.mnemonic = .directive .origin ∨ statement.mnemonic = .directive .equ →
    statement.operands.first? = some written → Expression.Names written name →
      ¬IsMnemonic name

/-! ### Names -/

namespace Text

variable {text : List Char}

private theorem isName_iff : isName text = true ↔ Named text := by
  cases text with
  | nil => simp [isName, Named]
  | cons c rest => simp [isName, Named, beginsName, continuesName, or_comm, or_left_comm]

/-- What holds of lower case letters need only be known of a character in upper case. -/
theorem of_toUpper {p : Char → Bool} (hlower : ∀ c, c.isLower = true → p c = true) {c : Char}
    (h : p c.toUpper = true) : p c = true := by
  by_cases hc : c.isLower = true
  · exact hlower c hc
  · have hcode : ¬(97 ≤ c.val ∧ c.val ≤ 122) := fun ⟨hle, hle'⟩ =>
      hc (Bool.and_eq_true_iff.mpr ⟨decide_eq_true hle, decide_eq_true hle'⟩)
    have hsame : c.toUpper = c := dif_neg hcode
    rwa [hsame] at h

private theorem beginsName_of_isLower {c : Char} (h : c.isLower = true) : beginsName c = true := by
  have halpha : c.isAlpha = true := Bool.or_eq_true_iff.mpr (.inr h)
  rw [beginsName, halpha, Bool.true_or]

/-- A text is a name if it is one in upper case. -/
private theorem isName_of_map_toUpper (h : isName (text.map Char.toUpper) = true) :
    isName text = true := by
  cases text with
  | nil => exact h
  | cons c rest =>
    simp only [List.map_cons, isName, Bool.and_eq_true, List.all_eq_true, List.mem_map,
      forall_exists_index, and_imp, forall_apply_eq_imp_iff₂] at h ⊢
    refine ⟨of_toUpper (fun _ => beginsName_of_isLower) h.1, fun d hd => ?_⟩
    refine of_toUpper (fun d hlower => ?_) (h.2 d hd)
    rw [continuesName, beginsName_of_isLower hlower, Bool.true_or]

end Text

/-- What spells a mnemonic is a name. -/
private theorem isName_of_isMnemonic {token : String} (h : IsMnemonic token) :
    Text.isName token.toList = true := by
  obtain ⟨mnemonic, hspelled⟩ := h
  have hname := mnemonic.isName_name
  rw [Mnemonic.SpelledAs, Text.upperCase] at hspelled
  rw [hspelled, String.toList_ofList] at hname
  exact Text.isName_of_map_toUpper hname

/-! ### Tables -/

private theorem Statement.isName_of_operandName? {statement : Statement} {name : String}
    (h : statement.operandName? = some name) : Text.isName name.toList = true := by
  rw [operandName?] at h
  split at h
  · exact (Option.filter_eq_some_iff.mp h).2
  · cases h

private theorem SourceLine.beginsLiteral_of_literalUse? {line text : String} {source : SourceLine}
    (h : ofText line = .ok source) (huse : source.literalUse? = some text) :
    beginsLiteral text = true := by
  cases source with
  | literal other =>
    rw [ofText_eq] at h
    cases huse
    exact (ofTokens_eq_literal_iff.mp h).2
  | statement content =>
    rw [literalUse?] at huse
    split at huse
    · have hliteral : isLiteralOperand text = true := (Option.filter_eq_some_iff.mp huse).2
      exact (Bool.and_eq_true_iff.mp hliteral).1
    · cases huse

/-- The label of a statement that was read is a name and no mnemonic. -/
theorem SourceLine.label_of_ofText {line label : String} {statement : Statement}
    (h : ofText line = .ok (.statement statement)) (hlabel : label ∈ statement.label) :
    Text.isName label.toList = true ∧ ¬IsMnemonic label := by
  rw [ofText_eq] at h
  obtain ⟨-, -, -, hlabels⟩ := Statement.ofTokens_eq_ok_iff.mp (ofTokens_eq_statement_iff.mp h)
  exact ⟨(hlabels label hlabel).2, Mnemonic.ofToken?_eq_none_iff.mp (hlabels label hlabel).1⟩

/-- The names that a line mentions are lawful, and so is its literal. -/
theorem SourceLine.mentionsOnly_of_ofText {line : String} {source : SourceLine}
    (h : ofText line = .ok source) :
    source.MentionsOnly (fun name => Text.isName name.toList = true)
      fun text => beginsLiteral text = true ∧ IsWord text := by
  refine ⟨fun name hname => ?_, fun text huse =>
    ⟨beginsLiteral_of_literalUse? h huse, (holdsWords_of_ofText h).literalUse? huse⟩⟩
  cases source with
  | literal text => cases hname
  | statement content =>
    rcases List.mem_append.mp hname with hlabel | hoperand
    · exact (label_of_ofText h (Option.mem_toList.mp hlabel)).1
    · exact Statement.isName_of_operandName? (Option.mem_toList.mp hoperand)

private theorem Context.lawful_of_rowsAre {context : Context}
    (hrows : context.RowsAre (fun name => Text.isName name.toList = true)
      fun text => beginsLiteral text = true ∧ IsWord text)
    (hbound : context.symbols.BoundAre fun name => ¬IsMnemonic name)
    (hdistinct : context.symbols.names.Nodup) : context.Lawful where
  names symbol hmem := Text.isName_iff.mp (hrows.names _ (List.mem_map_of_mem hmem))
  bound symbol hmem haddress := by
    obtain ⟨address, haddress⟩ := Option.isSome_iff_exists.mp haddress
    refine hbound symbol.name address ?_
    rw [SymbolTable.addressOf?, SymbolTable.find?_name_of_mem hdistinct hmem]
    exact haddress
  texts literal hmem := by
    obtain ⟨hbegins, hword⟩ := hrows.texts _ (List.mem_map_of_mem hmem)
    refine ⟨beq_iff_eq.mp hbegins, fun c hc => ?_⟩
    simpa [Text.isSeparator] using hword.2 c hc

/-- No mnemonic is bound by any lines. -/
theorem Scan.boundAre_run_of_empty (number : Nat) (lines : List String) :
    (run number lines ⟨.opening, {}⟩).2.context.symbols.BoundAre fun name => ¬IsMnemonic name :=
  boundAre_run LiteralTable.orderly_empty (fun _ _ hnone => by cases hnone)
    (fun _ _ hread _ hlabel => (SourceLine.label_of_ofText hread hlabel).2) number lines

/-- Tables are lawful after any lines. -/
theorem Scan.lawful_run (number : Nat) (lines : List String) :
    (run number lines ⟨.opening, {}⟩).2.context.Lawful :=
  Context.lawful_of_rowsAre
    (rowsAre_run Context.rowsAre_empty (fun _ _ => SourceLine.mentionsOnly_of_ofText) number lines)
    (boundAre_run_of_empty number lines) ((grows_run number lines _).distinct List.nodup_nil)

/-- No mnemonic is bound in the end. -/
theorem boundAre_assemble (text : String) :
    (assemble text).context.symbols.BoundAre fun name => ¬IsMnemonic name := by
  rw [assemble_context, (Scan.rows_finish _ _).1]
  exact Scan.boundAre_run_of_empty 1 (programLines text)

/-- The tables of a program are lawful in the end. -/
theorem lawful_assemble (text : String) : (assemble text).context.Lawful :=
  Context.lawful_of_rowsAre (rowsAre_assemble (fun _ _ => SourceLine.mentionsOnly_of_ofText) text)
    (boundAre_assemble text) (nodup_names_assemble text)

/-! ### Operands -/

section

variable {isBound : String → Prop} {written name : String}

/-- The name in an expression that has a value is bound. -/
theorem Expression.Names.bound (h : Names written name) {directive : Directive}
    {symbols : SymbolTable} {value : Nat}
    (hvalue : evaluate directive written symbols = .ok value) :
    ∃ address, symbols.addressOf? name = some address := by
  cases haddress : symbols.addressOf? name with
  | some address => exact ⟨address, rfl⟩
  | none =>
    rw [h.evaluate_eq haddress] at hvalue
    cases hvalue

/-- The name in the expression of a statement that is executed is bound, by the label of the
statement or before it. -/
private theorem Context.Executed.bound_of_names {context : Context} {statement : Statement}
    {effect : Effect} {content : Record}
    (h : context.Executed (.ok (.statement statement)) effect)
    (hresult : effect.result = .ok (some content))
    (hmnemonic : statement.mnemonic = .directive .origin ∨ statement.mnemonic = .directive .equ)
    (hwritten : statement.operands.first? = some written)
    (hnames : Expression.Names written name) (hcontext : context.symbols.BoundAre isBound)
    (hlabel : ∀ label ∈ statement.label, isBound label) : isBound name := by
  cases h with
  | @performed _ after result hequ hperformed =>
    have horigin := hmnemonic.resolve_right hequ
    obtain ⟨record, rfl⟩ : ∃ record, result = .ok record := by
      cases result with
      | error fault => cases hresult
      | ok record => exact ⟨record, rfl⟩
    cases hperformed with
    | instruction hother => simp [hother] at horigin
    | constant hother => simp [hother] at horigin
    | storage hother => simp [hother] at horigin
    | placed hother hplacing =>
      rw [horigin] at hother
      rw [← hother] at hplacing
      cases hplacing
    | @origin operand value _ hoperand hvalue =>
      obtain rfl := Option.some.inj (hoperand.symm.trans hwritten)
      obtain ⟨address, haddress⟩ := hnames.bound hvalue
      exact boundAre_bindLabel hcontext hlabel _ name address haddress
  | incomplete => cases hresult
  | valueless => cases hresult
  | equated _ _ hoperand hvalue =>
    obtain rfl := Option.some.inj (hoperand.symm.trans hwritten)
    obtain ⟨address, haddress⟩ := hnames.bound hvalue
    exact hcontext name address haddress

end

/-- The record of a statement was left by executing it after the lines before it, and what was known
then has only grown by the end. -/
theorem exists_executed_of_mem_records {text line : String} {record : Located Record}
    {statement : Statement} (h : record ∈ (assemble text).records)
    (hline : (programLines text)[record.line - 1]? = some line)
    (hread : SourceLine.ofText line = .ok (.statement statement))
    (hmnemonic : statement.mnemonic ≠ .directive .start) :
    ∃ before effect, (Scan.run 1 before ⟨.opening, {}⟩).2.context.Executed
        (.ok (.statement statement)) effect ∧
      effect.result = .ok (some record.content) ∧
      effect.context.Grows (assemble text).context := by
  obtain ⟨before, other, after, hlines, hnumber, hmem, hgrows⟩ := exists_step_of_mem_assemble h
  obtain rfl : other = line := by
    rw [hlines, hnumber, Nat.add_sub_cancel, List.getElem?_append_right (Nat.le_refl _),
      Nat.sub_self] at hline
    exact Option.some.inj hline
  have hstepped := Scan.stepped_step (Scan.run 1 before ⟨.opening, {}⟩).2 record.line other
  obtain ⟨label, operands, hstart⟩ | ⟨-, hresult, hcontext⟩ := hstepped.record_eq hmem
  · rw [hread] at hstart
    obtain rfl := SourceLine.statement.inj (Except.ok.inj hstart)
    exact absurd rfl hmnemonic
  · rw [hread] at hresult hcontext
    rw [hcontext] at hgrows
    exact ⟨before, _, Context.executed_execute _ _, hresult, hgrows⟩

/-- An instruction over a mnemonic is reported. -/
private theorem encodingOn_of_isMnemonic {text line operand : String} {record : Located Record}
    {statement : Statement} {opcode : Opcode} (h : record ∈ (assemble text).records)
    (hline : (programLines text)[record.line - 1]? = some line)
    (hread : SourceLine.ofText line = .ok (.statement statement))
    (hmnemonic : statement.mnemonic = .operation opcode)
    (hoperand : statement.operands.memory? = some operand) (hspelled : IsMnemonic operand) :
    (assemble text).encodingOn record.line =
      ⟨[], [⟨record.line, .error, .undefinedSymbol operand⟩]⟩ := by
  obtain ⟨before, effect, hexecuted, hresult, hgrows⟩ :=
    exists_executed_of_mem_records h hline hread (by simp [hmnemonic])
  obtain ⟨moved, register, reference, hcontent, -, hrefer⟩ :=
    hexecuted.instruction hmnemonic hresult
  have hnone : (assemble text).context.symbols.addressOf? operand = none := by
    rw [Option.eq_none_iff_forall_ne_some]
    intro address haddress
    exact boundAre_assemble text operand address haddress hspelled
  rw [hoperand] at hrefer
  have hresolve := hrefer.resolve_symbol hgrows (isName_of_isMnemonic hspelled)
  rw [hnone] at hresolve
  rw [encodingOn_eq h, Context.image_singleton, hcontent, Context.encode, hresolve]

/-- The tables of every program are lawful throughout, and no mnemonic is resolved in it. -/
theorem lawfulNames_assemble (text : String) : LawfulNames text where
  lines before _ _ := Scan.lawful_run 1 before
  final := lawful_assemble text
  operands _ h _ _ _ _ hline hread hmnemonic hoperand hspelled :=
    encodingOn_of_isMnemonic h hline hread hmnemonic hoperand hspelled
  expressions record h line statement written name hline hread hmnemonic hwritten hnames := by
    obtain ⟨before, effect, hexecuted, hresult, -⟩ :=
      exists_executed_of_mem_records h hline hread (by rcases hmnemonic with h | h <;> simp [h])
    exact hexecuted.bound_of_names hresult hmnemonic hwritten hnames
      (Scan.boundAre_run_of_empty 1 before) fun _ hlabel =>
        (SourceLine.label_of_ofText hread hlabel).2

end Assembler
