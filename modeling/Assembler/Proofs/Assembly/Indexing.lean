import Assembler.Proofs.Assembly.Stream

/-!
# Indices follow the source

A line mentions names in two places: in front, where its label stands, and behind, where the memory
operand of an instruction may be a name.  It mentions a literal where the operand is one, or where
a literal stands alone.  The names in the expressions of ORIGIN and EQU are looked up and not
mentioned.

As long as nothing fails, the tables are what these mentions come to: each row stands where its
name or its text was mentioned first, labels before operands and earlier lines before later ones.
So the index in a record can be told from the program alone.

## Main definitions

* `mentionedNames` : the names that a line mentions.
* `addMissing` : a list with those of further values that it lacks.
* `DenotesOperand` : an index that is that of the memory operand of a record's line.
* `FollowsSource` : the tables and the indices in records are what the lines mention.

## Main results

* `Scan.names_step`, `Scan.texts_step` : what a line that does not fail adds to the tables.
* `Scan.rows_run` : what any lines add to a table, given what each of them does.
* `followsSource_of_not_failed` : tables and records of every program whose reading does not fail.
-/

namespace Assembler

/-! ### What lines mention -/

/-- Whether an operand may be the name of a symbol. -/
def isNameOperand (operand : String) : Bool :=
  Text.isName operand.toList

/-- The name that a statement mentions behind its mnemonic: the memory operand of an instruction, if
that is a name. -/
def Statement.operandName? (statement : Statement) : Option String :=
  match statement.mnemonic with
  | .operation _ => statement.operands.memory?.filter isNameOperand
  | _ => none

/-- The names that a source line mentions: the label of a statement, then what stands behind its
mnemonic. -/
def SourceLine.mentionedNames : SourceLine → List String
  | literal _ => []
  | statement content => content.label.toList ++ content.operandName?.toList

/-- The names that a line mentions. -/
def mentionedNames (line : String) : List String :=
  match SourceLine.ofText line with
  | .ok source => source.mentionedNames
  | .error _ => []

/-- The lines that reading a program handles. -/
def programHandled (text : String) : List String :=
  (handledLines 1 (programLines text)).map Prod.fst

/-- An index in a record is that of the memory operand of its line: the row at the index in a table
with these keys is the row of that operand. -/
def DenotesOperand (text : String) (record : Located Record) (keys : List String)
    (index : Nat) : Prop :=
  ∃ line statement operand, (programLines text)[record.line - 1]? = some line ∧
    SourceLine.ofText line = .ok (.statement statement) ∧
    statement.operands.memory? = some operand ∧ operand ∈ keys ∧
    index = keys.idxOf operand + 1

/-- The tables of a program are what its lines mention, in the order of first mentions, and the
indices in its records are those of the operands that stand on their lines. -/
structure FollowsSource (text : String) : Prop where
  names : (scanText text {}).2.symbols.names =
    ((programHandled text).flatMap mentionedNames).eraseDups
  texts : (scanText text {}).2.literals.texts =
    ((programHandled text).filterMap lineUse?).eraseDups
  symbols : ∀ record ∈ (scanText text {}).1.records, ∀ opcode register index,
    record.content = .instruction opcode register (.symbol index) →
      DenotesOperand text record (scanText text {}).2.symbols.names index
  literals : ∀ record ∈ (scanText text {}).1.records, ∀ opcode register index,
    record.content = .instruction opcode register (.literal index) →
      DenotesOperand text record (scanText text {}).2.literals.texts index

/-! ### Values that a list lacks -/

/-- A list with those of further values behind it that it lacks. -/
def addMissing (values further : List String) : List String :=
  further.foldl (fun all value => if value ∈ all then all else all ++ [value]) values

private theorem addMissing_append (values first second : List String) :
    addMissing values (first ++ second) = addMissing (addMissing values first) second :=
  List.foldl_append

/-- What an empty list lacks is everything, once. -/
theorem addMissing_nil (further : List String) : addMissing [] further = further.eraseDups := by
  induction further using List.reverseRecOn with
  | nil => rfl
  | append_singleton further value ih =>
    rw [addMissing_append, ih, Keyed.eraseDups_concat]
    rfl

private theorem SymbolTable.names_enter_eq (table : SymbolTable) (name : String) :
    (table.enter name).names = addMissing table.names [name] :=
  names_enter table name

/-! ### One line -/

namespace Context

variable {context : Context}

private theorem names_bindName (context : Context) (name : String) (address : Nat) :
    (context.bindName name address).2.symbols.names =
      addMissing context.symbols.names [name] :=
  (SymbolTable.names_define _ name address).trans (SymbolTable.names_enter_eq _ name)

private theorem names_bindLabel (context : Context) (label? : Option String) (address : Nat) :
    (context.bindLabel label? address).2.symbols.names =
      addMissing context.symbols.names label?.toList := by
  cases label? with
  | none => rfl
  | some label => exact names_bindName context label address

/-- Only an operand that is a name is entered in the symbol table. -/
theorem Referred.names_eq {after : Context} {operand? : Option String} {reference : Reference}
    (h : context.Referred operand? reference after) :
    after.symbols.names =
      addMissing context.symbols.names (operand?.filter isNameOperand).toList := by
  cases h with
  | absent => rfl
  | @literal operand hliteral =>
    have hname : isNameOperand operand = false := by
      by_contra hname
      rw [isLiteralOperand_of_isName (Bool.of_not_eq_false hname)] at hliteral
      cases hliteral
    rw [Option.filter_some_neg hname]
    rfl
  | @constant operand value hvalue =>
    have hname : isNameOperand operand = false := by
      by_contra hname
      rw [Text.readNumeral?_of_isName (Bool.of_not_eq_false hname)] at hvalue
      cases hvalue
    rw [Option.filter_some_neg hname]
    rfl
  | @symbol operand hname =>
    have hoperand : isNameOperand operand = true := hname
    rw [Option.filter_some_pos hoperand]
    exact SymbolTable.names_enter_eq _ _

/-- Performing a statement enters the name behind its mnemonic. -/
theorem Performed.names_eq {bound after : Context} {statement : Statement} {record : Record}
    (h : bound.Performed statement after (.ok record)) :
    after.symbols.names = addMissing bound.symbols.names statement.operandName?.toList := by
  rw [Statement.operandName?]
  cases h with
  | instruction hmnemonic _ _ hrefer =>
    rw [hmnemonic]
    exact hrefer.names_eq
  | constant hmnemonic =>
    rw [hmnemonic]
    rfl
  | storage hmnemonic =>
    rw [hmnemonic]
    exact SymbolTable.names_elim_setLength _ _ _
  | origin hmnemonic =>
    rw [hmnemonic]
    rfl
  | placed hmnemonic hplacing hplaced =>
    rw [hmnemonic, (rows_of_placing hplacing hplaced).1]
    rfl

/-- A source line that does not fail enters the names that it mentions. -/
theorem Executed.names_eq {source : SourceLine} {effect : Effect}
    (h : context.Executed (.ok source) effect) {record? : Option Record}
    (hresult : effect.result = .ok record?) :
    effect.context.symbols.names =
      addMissing context.symbols.names source.mentionedNames := by
  cases h with
  | literal => rfl
  | @performed statement after result _ hperformed =>
    cases result with
    | error fault => cases hresult
    | ok record =>
      rw [SourceLine.mentionedNames, addMissing_append, ← names_bindLabel]
      exact hperformed.names_eq
  | incomplete => cases hresult
  | valueless => cases hresult
  | @equated statement label operand value hmnemonic hlabel =>
    rw [SourceLine.mentionedNames, Statement.operandName?, hmnemonic, hlabel, addMissing_append]
    exact names_bindName context label value

end Context

namespace Scan

variable {scan : Scan} {number : Nat} {line : String} {lines : List String}

/-- A line that does not fail adds the names that it mentions to the symbol table. -/
theorem names_step (hphase : scan.phase ≠ .ended) (hclean : ¬(scan.step number line).1.Failed) :
    (scan.step number line).2.context.symbols.names =
      addMissing scan.context.symbols.names (mentionedNames line) := by
  rw [mentionedNames]
  have hstepped := scan.stepped_step number line
  generalize scan.step number line = outcome at hclean hstepped ⊢
  cases hstepped with
  | idle hidle =>
    rw [SourceLine.ofText_of_isBlankText (hidle.resolve_right hphase)]
    rfl
  | opened _ _ hread =>
    rw [hread]
    dsimp only [SourceLine.mentionedNames]
    rw [addMissing_append]
    exact Context.names_bindLabel _ _ _
  | proceeded =>
    dsimp only [proceed] at hclean ⊢
    have hexecuted := Context.executed_execute scan.context (SourceLine.ofText line)
    cases hread : SourceLine.ofText line with
    | error fault =>
      rw [hread] at hclean
      exact absurd (Trace.failed_ofLine fault) hclean
    | ok source =>
      rw [hread] at hclean hexecuted
      dsimp only
      cases hresult : (scan.context.execute (.ok source)).result with
      | error fault => exact absurd (Trace.failed_ofLine_iff.mpr ⟨fault, hresult⟩) hclean
      | ok record? => exact hexecuted.names_eq hresult

/-- A line that does not fail adds the literal that it uses to the literal table. -/
theorem texts_step (horderly : scan.context.literals.Orderly) (hphase : scan.phase ≠ .ended)
    (hclean : ¬(scan.step number line).1.Failed) :
    (scan.step number line).2.context.literals.texts =
      addMissing scan.context.literals.texts (lineUse? line).toList := by
  rw [literals_step horderly hphase hclean, Context.texts_literalsAfter, lineUse?]
  cases (SourceLine.ofText line).toOption.bind SourceLine.literalUse? with
  | none => exact List.append_nil _
  | some text =>
    rw [Option.toList_some]
    change _ = if text ∈ scan.context.literals.texts then _ else _
    split_ifs with hused <;> simp [hused]

/-- What lines that do not fail add to a table, given what each of them adds. -/
theorem rows_run (keys : Context → List String) {mentions : String → List String}
    (hstep : ∀ (scan : Scan) number line, scan.context.literals.Orderly → scan.phase ≠ .ended →
      ¬(scan.step number line).1.Failed →
        keys (scan.step number line).2.context = addMissing (keys scan.context) (mentions line))
    (hclean : ¬(run number lines scan).1.Failed) (horderly : scan.context.literals.Orderly)
    (hphase : scan.phase ≠ .ended) :
    keys (run number lines scan).2.context =
      addMissing (keys scan.context)
        (((handledLines number lines).map Prod.fst).flatMap mentions) := by
  induction lines generalizing number scan with
  | nil => rfl
  | cons line rest ih =>
    rw [run_cons, Trace.failed_append, not_or] at hclean
    obtain ⟨hfirst, hrest⟩ := hclean
    have hnext := (scan.stepped_step number line).orderly horderly
    rw [run_cons]
    cases hblank : Text.isBlankText line.toList with
    | true =>
      rw [handledLines_cons_of_blank hblank]
      rw [step_of_blank hblank] at hrest ⊢
      exact ih hrest horderly hphase
    | false =>
      have hline := hstep scan number line horderly hphase hfirst
      cases hfinish : isDirectiveLine .finish line with
      | true =>
        rw [handledLines_cons_of_finish hblank hfinish,
          run_of_ended (phase_step_of_finish hphase hfinish), hline]
        simp
      | false =>
        rw [handledLines_cons hblank hfinish,
          ih hrest hnext (phase_step_ne_ended hphase hfinish), hline, ← addMissing_append]
        rfl

end Scan

/-! ### Whole programs -/

/-- The reading of a program whose lines leave no error fails nowhere. -/
theorem not_failed_run {text : String} (h : ¬(scanText text {}).1.Failed) :
    ¬(Scan.run 1 (programLines text) ⟨.opening, {}⟩).1.Failed := by
  intro hfailed
  refine h ?_
  change (Trace.append _ _).Failed
  exact Trace.failed_append.mpr (.inl hfailed)

/-- The names of a program are those that its lines mention. -/
theorem names_scanText {text : String} (h : ¬(scanText text {}).1.Failed) :
    (scanText text {}).2.symbols.names =
      ((programHandled text).flatMap mentionedNames).eraseDups := by
  have hrun := Scan.rows_run (fun context => context.symbols.names)
    (fun _ _ _ _ hphase hclean => Scan.names_step hphase hclean) (not_failed_run h)
    LiteralTable.orderly_empty (by simp)
  have hfinish : (scanText text {}).2.symbols = (programScan text).context.symbols :=
    (Scan.rows_finish (programScan text) (programLines text).length).1
  rw [hfinish, ← addMissing_nil]
  exact hrun

/-- The literals of a program are those that its lines use. -/
theorem texts_scanText {text : String} (h : ¬(scanText text {}).1.Failed) :
    (scanText text {}).2.literals.texts =
      ((programHandled text).filterMap lineUse?).eraseDups := by
  have hrun := Scan.rows_run (fun context => context.literals.texts)
    (fun _ _ _ horderly hphase hclean => Scan.texts_step horderly hphase hclean)
    (not_failed_run h) LiteralTable.orderly_empty (by simp)
  have hfinish : (scanText text {}).2.literals.texts = (programScan text).context.literals.texts :=
    (Scan.rows_finish (programScan text) (programLines text).length).2
  rw [hfinish, ← addMissing_nil, List.filterMap_eq_flatMap_toList]
  exact hrun

/-- The index of a symbol in a record is that of the memory operand of its line. -/
private theorem denotesOperand_symbol {text : String} {record : Located Record}
    (hmem : record ∈ (assemble text).records) {opcode : Opcode} {register index : Nat}
    (hcontent : record.content = .instruction opcode register (.symbol index)) :
    DenotesOperand text record (assemble text).context.symbols.names index := by
  obtain ⟨line, statement, moved, after, hline, hread, -, -, hrefer, hgrows⟩ :=
    exists_referred_of_mem_records hmem hcontent
  generalize hmemory : statement.operands.memory? = operand? at hrefer
  cases hrefer with
  | @symbol operand =>
    obtain ⟨hmem, hindex⟩ := SymbolTable.index_of_entered hgrows.names
    exact ⟨line, statement, operand, hline, hread, hmemory, hmem, hindex⟩

/-- The index of a literal in a record is that of the memory operand of its line. -/
private theorem denotesOperand_literal {text : String} {record : Located Record}
    (hmem : record ∈ (assemble text).records) {opcode : Opcode} {register index : Nat}
    (hcontent : record.content = .instruction opcode register (.literal index)) :
    DenotesOperand text record (assemble text).context.literals.texts index := by
  obtain ⟨line, statement, moved, after, hline, hread, -, -, hrefer, hgrows⟩ :=
    exists_referred_of_mem_records hmem hcontent
  generalize hmemory : statement.operands.memory? = operand? at hrefer
  cases hrefer with
  | @literal operand =>
    obtain ⟨hmem, hindex⟩ := LiteralTable.index_of_interned hgrows.texts
    exact ⟨line, statement, operand, hline, hread, hmemory, hmem, hindex⟩

/-- Tables and records of every program whose reading does not fail. -/
theorem followsSource_of_not_failed {text : String} (h : ¬(scanText text {}).1.Failed) :
    FollowsSource text where
  names := names_scanText h
  texts := texts_scanText h
  symbols _ hmem _ _ _ hcontent := denotesOperand_symbol hmem hcontent
  literals _ hmem _ _ _ hcontent := denotesOperand_literal hmem hcontent

/-- A program that mentions a symbol before it binds it, looks one up in an expression, uses a
literal twice, and goes on behind its END. -/
def mentioningProgram : String :=
  "A START 5\n MOVER AREG Y\n='2'\nB EQU A+1\n ADD BREG ='1'\n ORIGIN B\nY ADD CREG ='2'\n" ++
    "C END\nZ STOP"

/-- The symbol that is used first stands before those that are bound first, and the literal alone
on its line before the operand. -/
theorem followsSource_mentioningProgram :
    ¬(scanText mentioningProgram {}).1.Failed ∧
      (scanText mentioningProgram {}).2.symbols.names = ["A", "Y", "B", "C"] ∧
      (scanText mentioningProgram {}).2.literals.texts = ["='2'", "='1'"] ∧
      DenotesOperand mentioningProgram ⟨7, 6, .instruction .add 3 (.literal 1)⟩
        (scanText mentioningProgram {}).2.literals.texts 1 := by
  have hclean : ¬(scanText mentioningProgram {}).1.Failed := by
    rintro ⟨diagnostic, hmem, herror⟩
    have hnone : ∀ other ∈ (scanText mentioningProgram {}).1.diagnostics,
        other.isError = false := by decide +kernel
    rw [hnone diagnostic hmem] at herror
    cases herror
  have hfollows := followsSource_of_not_failed hclean
  have hrecord : (⟨7, 6, .instruction .add 3 (.literal 1)⟩ : Located Record) ∈
      (scanText mentioningProgram {}).1.records := by
    decide +kernel
  refine ⟨hclean, hfollows.names.trans ?_, hfollows.texts.trans ?_,
    hfollows.literals _ hrecord .add 3 1 rfl⟩
  · decide +kernel
  · decide +kernel

end Assembler
