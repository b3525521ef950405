import Assembler.Proofs.Assembly.Indexing
import Assembler.Proofs.Assembly.Limit

/-!
# Rows come from mentions

Nothing is entered in a table but what a line mentions: its label, the memory operand of its
instruction, or a literal that stands alone.  This holds for lines that fail as well, although they
enter less than they mention.  So what is true of every name and of every literal that a line can
mention is true of all rows of the tables, after any lines and in the end.

Of the names only labels are bound, so what is true of all labels is true of all names that have an
address.

## Main definitions

* `Context.RowsAre` : tables whose rows have given properties.
* `SourceLine.MentionsOnly` : source lines whose mentions have them.
* `SymbolTable.BoundAre` : tables whose bound names have a given property.

## Main results

* `Scan.rowsAre_run`, `Scan.boundAre_run` : the rows after any lines, given what lines mention.
* `rowsAre_assemble` : the rows of a program in the end.
-/

namespace Assembler

variable {isName isText : String → Prop}

/-- All names in the tables have one property, and all literals another. -/
structure Context.RowsAre (isName isText : String → Prop) (context : Context) : Prop where
  names : ∀ name ∈ context.symbols.names, isName name
  texts : ∀ text ∈ context.literals.texts, isText text

/-- All names that a source line mentions have one property, and its literal another. -/
structure SourceLine.MentionsOnly (isName isText : String → Prop) (source : SourceLine) :
    Prop where
  names : ∀ name ∈ source.mentionedNames, isName name
  text : ∀ text ∈ source.literalUse?, isText text

/-- All names that have an address have a property. -/
def SymbolTable.BoundAre (isBound : String → Prop) (table : SymbolTable) : Prop :=
  ∀ name address, table.addressOf? name = some address → isBound name

namespace SourceLine.MentionsOnly

variable {statement : Statement}

theorem label (h : (SourceLine.statement statement).MentionsOnly isName isText) :
    ∀ label ∈ statement.label, isName label :=
  fun _ hlabel => h.names _ (List.mem_append_left _ (Option.mem_toList.mpr hlabel))

/-- The memory operand of an instruction is mentioned if it is a name. -/
private theorem operandName (h : (SourceLine.statement statement).MentionsOnly isName isText)
    {opcode : Opcode} (hmnemonic : statement.mnemonic = .operation opcode) {operand : String}
    (hoperand : statement.operands.memory? = some operand)
    (hname : isNameOperand operand = true) : isName operand := by
  refine h.names operand (List.mem_append_right _ (Option.mem_toList.mpr ?_))
  rw [Statement.operandName?, hmnemonic]
  dsimp only
  rw [hoperand, Option.filter_some_pos hname]

/-- It is mentioned if it is a literal, too. -/
private theorem operandText (h : (SourceLine.statement statement).MentionsOnly isName isText)
    {opcode : Opcode} (hmnemonic : statement.mnemonic = .operation opcode) {operand : String}
    (hoperand : statement.operands.memory? = some operand)
    (hliteral : isLiteralOperand operand = true) : isText operand := by
  refine h.text operand ?_
  rw [literalUse?, hmnemonic]
  dsimp only
  rw [hoperand, Option.filter_some_pos hliteral]
  exact Option.mem_some_self operand

end SourceLine.MentionsOnly

/-! ### One line -/

namespace Context

variable {context : Context}

/-- Tables with the same keys have rows with the same properties. -/
theorem RowsAre.of_rows {other : Context} (h : context.RowsAre isName isText)
    (hsymbols : other.symbols.names = context.symbols.names)
    (htexts : other.literals.texts = context.literals.texts) : other.RowsAre isName isText :=
  ⟨by rw [hsymbols]; exact h.names, by rw [htexts]; exact h.texts⟩

theorem RowsAre.enter (h : context.RowsAre isName isText) {name : String} (hname : isName name) :
    RowsAre isName isText { context with symbols := context.symbols.enter name } := by
  refine ⟨fun other hother => ?_, h.texts⟩
  by_cases hold : other ∈ context.symbols.names
  · exact h.names other hold
  · rw [SymbolTable.eq_of_mem_names_enter hother hold]
    exact hname

theorem RowsAre.intern (h : context.RowsAre isName isText) {text : String} (htext : isText text) :
    RowsAre isName isText { context with literals := (context.literals.intern text).2 } := by
  refine ⟨h.names, fun other hother => ?_⟩
  rw [LiteralTable.texts_intern] at hother
  split_ifs at hother
  · exact h.texts other hother
  · rcases List.mem_append.mp hother with hold | hnew
    · exact h.texts other hold
    · rw [List.mem_singleton.mp hnew]
      exact htext

theorem RowsAre.bindName (h : context.RowsAre isName isText) {name : String} (hname : isName name)
    (address : Nat) : (context.bindName name address).2.RowsAre isName isText :=
  (h.enter hname).of_rows (SymbolTable.names_define _ _ _) rfl

theorem RowsAre.bindLabel (h : context.RowsAre isName isText) {label? : Option String}
    (hlabel : ∀ label ∈ label?, isName label) (address : Nat) :
    (context.bindLabel label? address).2.RowsAre isName isText := by
  cases label? with
  | none => exact h
  | some label => exact h.bindName (hlabel label rfl) address

/-- Performing a statement enters nothing but its memory operand. -/
theorem Performed.rowsAre {bound after : Context} {statement : Statement}
    {result : Except Fault Record} (h : bound.Performed statement after result)
    (hbound : bound.RowsAre isName isText)
    (hsource : (SourceLine.statement statement).MentionsOnly isName isText) :
    after.RowsAre isName isText := by
  cases h with
  | refused => exact hbound
  | full => exact hbound
  | spoiled => exact hbound.of_rows rfl rfl
  | instruction hmnemonic _ _ hrefer =>
    have hmoved : RowsAre isName isText { bound with location := bound.location + 1 } :=
      hbound.of_rows rfl rfl
    generalize hmemory : statement.operands.memory? = operand? at hrefer
    cases hrefer with
    | absent => exact hmoved
    | literal hliteral => exact hmoved.intern (hsource.operandText hmnemonic hmemory hliteral)
    | constant => exact hmoved
    | symbol hname => exact hmoved.enter (hsource.operandName hmnemonic hmemory hname)
  | constant => exact hbound.of_rows rfl rfl
  | storage => exact hbound.of_rows (SymbolTable.names_elim_setLength _ _ _) rfl
  | origin => exact hbound.of_rows rfl rfl
  | placed _ hplacing hplaced =>
    obtain ⟨hsymbols, htexts⟩ := rows_of_placing hplacing hplaced
    exact hbound.of_rows (by rw [hsymbols]) htexts
  | unplaced => exact hbound

/-- A source line enters nothing but what it mentions. -/
theorem Executed.rowsAre {source : SourceLine} {effect : Effect}
    (h : context.Executed (.ok source) effect) (hcontext : context.RowsAre isName isText)
    (hsource : source.MentionsOnly isName isText) : effect.context.RowsAre isName isText := by
  cases h with
  | literal text => exact hcontext.intern (hsource.text text rfl)
  | performed _ hperformed =>
    exact hperformed.rowsAre (hcontext.bindLabel hsource.label _) hsource
  | incomplete => exact hcontext
  | valueless _ hlabel => exact hcontext.enter (hsource.label _ hlabel)
  | equated _ hlabel => exact hcontext.bindName (hsource.label _ hlabel) _

end Context

/-! ### Any lines -/

namespace Scan

variable {scan : Scan} {number : Nat} {line : String} {outcome : Trace × Scan}

private theorem Stepped.rowsAre (h : scan.Stepped number line outcome)
    (hscan : scan.context.RowsAre isName isText)
    (hline : ∀ source, SourceLine.ofText line = .ok source → source.MentionsOnly isName isText) :
    outcome.2.context.RowsAre isName isText := by
  cases h with
  | idle => exact hscan
  | opened _ _ hread =>
    rw [openWith]
    refine Context.RowsAre.bindLabel ?_ (hline _ hread).label _
    exact hscan.of_rows rfl rfl
  | proceeded =>
    have hexecuted := scan.context.executed_execute (SourceLine.ofText line)
    cases hread : SourceLine.ofText line with
    | error unread => exact hscan
    | ok source =>
      rw [hread] at hexecuted
      exact hexecuted.rowsAre hscan (hline source hread)

/-- What is true of all that lines can mention is true of the rows after any lines. -/
theorem rowsAre_run (hscan : scan.context.RowsAre isName isText)
    (hline : ∀ line source, SourceLine.ofText line = .ok source →
      source.MentionsOnly isName isText) (number : Nat) (lines : List String) :
    (run number lines scan).2.context.RowsAre isName isText := by
  have hrun := run_induction (motive := fun _ next => next.context.RowsAre isName isText) number
    lines {} hscan fun _ next place line hnext =>
      (next.stepped_step place line).rowsAre hnext (hline line)
  exact hrun

end Scan

/-! ### Bound names -/

section

variable {isBound : String → Prop} {name : String} {address : Nat}

/-- What a source line binds is the label of its statement. -/
private theorem Context.label_of_mem_bindings {context : Context} {source : Except Fault SourceLine}
    (h : (name, address) ∈ context.bindings source) :
    ∃ statement, source = .ok (.statement statement) ∧ name ∈ statement.label := by
  rcases source with fault | text | statement
  · exact absurd h List.not_mem_nil
  · exact absurd h List.not_mem_nil
  · have hbinding : statement.binding? context = some (name, address) := Option.mem_toList.mp h
    refine ⟨statement, rfl, ?_⟩
    by_cases hmnemonic : statement.mnemonic = .directive .equ
    · rw [Statement.binding?, hmnemonic] at hbinding
      cases hlabel : statement.label with
      | none => simp [hlabel] at hbinding
      | some label =>
        cases hoperand : statement.operands.first? with
        | none => simp [hlabel, hoperand] at hbinding
        | some operand =>
          obtain ⟨-, -, rfl, -⟩ : ∃ value, _ = some value ∧ label = name ∧ value = address := by
            simpa [hlabel, hoperand] using hbinding
          rfl
    · rw [Statement.binding?_of_ne_equ context hmnemonic] at hbinding
      obtain ⟨label, hlabel, hpair⟩ := Option.map_eq_some_iff.mp hbinding
      rwa [← (Prod.mk.inj hpair).1]

theorem Context.boundAre_bindLabel {context : Context} (h : context.symbols.BoundAre isBound)
    {label? : Option String} (hlabel : ∀ label ∈ label?, isBound label) (address : Nat) :
    (context.bindLabel label? address).2.symbols.BoundAre isBound := by
  intro name bound hbound
  rw [addressOf?_bindLabel, Option.or_eq_some_iff] at hbound
  obtain hlast | ⟨-, hold⟩ := hbound
  · obtain ⟨label, hmem, hpair⟩ := Option.map_eq_some_iff.mp
      (Option.mem_toList.mp (mem_of_lastBinding? hlast))
    rw [← (Prod.mk.inj hpair).1]
    exact hlabel label hmem
  · exact h name bound hold

namespace Scan

variable {scan : Scan} {number : Nat} {line : String} {outcome : Trace × Scan}

private theorem Stepped.boundAre (h : scan.Stepped number line outcome)
    (horderly : scan.context.literals.Orderly) (hscan : scan.context.symbols.BoundAre isBound)
    (hline : ∀ statement, SourceLine.ofText line = .ok (.statement statement) →
      ∀ label ∈ statement.label, isBound label) :
    outcome.2.context.symbols.BoundAre isBound := by
  cases h with
  | idle => exact hscan
  | opened _ _ hread =>
    rw [openWith]
    refine Context.boundAre_bindLabel ?_ (hline _ hread) _
    exact hscan
  | proceeded =>
    intro name address hbound
    have hexecuted := scan.context.executed_execute (SourceLine.ofText line)
    dsimp only [proceed] at hbound
    rw [hexecuted.addressOf? horderly, Option.or_eq_some_iff] at hbound
    obtain hlast | ⟨-, hold⟩ := hbound
    · obtain ⟨statement, hread, hlabel⟩ :=
        Context.label_of_mem_bindings (mem_of_lastBinding? hlast)
      exact hline statement hread name hlabel
    · exact hscan name address hold

/-- What is true of all labels is true of all names that are bound after any lines. -/
theorem boundAre_run (horderly : scan.context.literals.Orderly)
    (hscan : scan.context.symbols.BoundAre isBound)
    (hline : ∀ line statement, SourceLine.ofText line = .ok (.statement statement) →
      ∀ label ∈ statement.label, isBound label) (number : Nat) (lines : List String) :
    (run number lines scan).2.context.symbols.BoundAre isBound := by
  induction lines generalizing number scan with
  | nil => exact hscan
  | cons line rest ih =>
    have hstepped := scan.stepped_step number line
    exact ih (hstepped.orderly horderly) (hstepped.boundAre horderly hscan (hline line))
      (number + 1)

end Scan

end

/-! ### Whole programs -/

theorem Context.rowsAre_empty : Context.RowsAre isName isText {} :=
  ⟨fun _ hmem => absurd hmem List.not_mem_nil, fun _ hmem => absurd hmem List.not_mem_nil⟩

/-- What is true of all that lines can mention is true of the rows of a program in the end. -/
theorem rowsAre_assemble (hline : ∀ line source, SourceLine.ofText line = .ok source →
    source.MentionsOnly isName isText) (text : String) :
    (assemble text).context.RowsAre isName isText := by
  have hrun : (programScan text).context.RowsAre isName isText :=
    Scan.rowsAre_run Context.rowsAre_empty hline 1 (programLines text)
  obtain ⟨hsymbols, htexts⟩ := Scan.rows_finish (programScan text) (programLines text).length
  rw [assemble_context]
  exact hrun.of_rows (congrArg SymbolTable.names hsymbols) htexts

end Assembler
