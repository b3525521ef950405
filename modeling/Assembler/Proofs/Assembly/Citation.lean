import Assembler.Proofs.Assembly.Mention
import Assembler.Proofs.Source.Renaming

/-!
# What diagnostics cite

A diagnostic that cites a text cites a word of the program: a word of the line that it blames, the
name in front of one, or a row of one of the tables, whose rows are such words too.  As no word
holds a line feed, a diagnostic is reported in one line.

## Main definitions

* `Fault.cited?` : the text that a fault cites.
* `Fault.CitesWord`, `Trace.CitesWords` : faults and traces that cite words only.
* `SourceLine.HoldsWords`, `Context.HoldsWords` : lines and tables that hold words only.

## Main results

* `Scan.citesWords_run` : what lines leave behind cites words.
* `holdsWords_assemble` : the tables of a program hold words.
* `not_mem_text_of_mem_assemble` : the diagnostics of a program are reported in one line each.
-/

namespace Assembler

/-- The text that a malformed statement is reported with. -/
def Malformation.cited? : Malformation → Option String
  | empty => none
  | badLabel token => some token
  | tooManyOperands _ _ => none
  | lateStart => none
  | equWithoutLabel => none
  | missingOperand _ => none
  | badRegister token => some token
  | constantTooLarge token => some token
  | badMemoryOperand token => some token

/-- The text that a fault cites. -/
def Fault.cited? : Fault → Option String
  | malformed reason => reason.cited?
  | badOperand _ operand => some operand
  | undefinedSymbol name => some name
  | danglingSymbol _ => none
  | unplacedLiteral text => some text
  | danglingLiteral _ => none
  | unknownMnemonic token => some token
  | overflow _ => none
  | locationOverflow _ _ => none
  | redefinition name _ => some name
  | missingStart => none
  | missingEnd => none

/-- Whether the text that a fault cites is a word. -/
def Fault.CitesWord (fault : Fault) : Prop :=
  ∀ cited ∈ fault.cited?, IsWord cited

/-- Whether all that the diagnostics of a trace cite are words. -/
def Trace.CitesWords (trace : Trace) : Prop :=
  ∀ diagnostic ∈ trace.diagnostics, diagnostic.fault.CitesWord

/-- Whether all that is written in a line are words. -/
def SourceLine.HoldsWords : SourceLine → Prop
  | literal text => IsWord text
  | statement content =>
    (∀ label ∈ content.label, IsWord label) ∧ ∀ operand ∈ content.operands.toList, IsWord operand

/-- Whether all names and literals of the tables are words. -/
structure Context.HoldsWords (context : Context) : Prop where
  names : ∀ name ∈ context.symbols.names, IsWord name
  texts : ∀ text ∈ context.literals.texts, IsWord text

/-! ### Messages -/

/-- Whether a text stays within a line. -/
def Text.IsUnbroken (text : String) : Prop :=
  '\n' ∉ text.toList

instance (text : String) : Decidable (Text.IsUnbroken text) :=
  inferInstanceAs (Decidable ( '\n' ∉ text.toList))

section

variable {front text back : String}

theorem Text.IsUnbroken.append (h : IsUnbroken front) (h' : IsUnbroken text) :
    IsUnbroken (front ++ text) := by
  rw [IsUnbroken, String.toList_append, List.mem_append, not_or]
  exact ⟨h, h'⟩

theorem Text.IsUnbroken.between (h : IsUnbroken text) (hfront : IsUnbroken front)
    (hback : IsUnbroken back) : IsUnbroken (front ++ text ++ back) :=
  (hfront.append h).append hback

theorem Text.isUnbroken_repr (n : Nat) : IsUnbroken n.repr := by
  intro hfeed
  exact absurd ((Text.repr_word n).2 _ hfeed).1 (by decide)

private theorem IsWord.isUnbroken (h : IsWord text) : Text.IsUnbroken text := by
  intro hfeed
  exact absurd (h.2 _ hfeed) (by decide)

end

private theorem Mnemonic.isUnbroken_name (mnemonic : Mnemonic) : Text.IsUnbroken mnemonic.name := by
  cases mnemonic with
  | directive word => cases word <;> decide
  | declaration word => cases word <;> decide
  | operation word => cases word <;> decide

private theorem FieldOverflow.isUnbroken_message (overflow : FieldOverflow) :
    Text.IsUnbroken overflow.message := by
  have hname : Text.IsUnbroken overflow.field.name := by
    cases overflow.field <;> decide
  have hvalue := (Text.isUnbroken_repr overflow.value).between
    (hname.append (by decide : Text.IsUnbroken " "))
    (by decide : Text.IsUnbroken " does not fit in ")
  exact (Text.isUnbroken_repr overflow.field.digits).between hvalue (by decide)

private theorem Malformation.isUnbroken_message {reason : Malformation}
    (h : ∀ cited ∈ reason.cited?, IsWord cited) : Text.IsUnbroken reason.message := by
  cases reason with
  | empty => decide
  | badLabel token => exact (h token rfl).isUnbroken.between (by decide) (by decide)
  | tooManyOperands mnemonic count =>
    exact (mnemonic.isUnbroken_name.append (by decide)).append (Text.isUnbroken_repr count)
  | lateStart => decide
  | equWithoutLabel => decide
  | missingOperand mnemonic => exact mnemonic.isUnbroken_name.append (by decide)
  | badRegister token => exact (h token rfl).isUnbroken.between (by decide) (by decide)
  | constantTooLarge token => exact (h token rfl).isUnbroken.between (by decide) (by decide)
  | badMemoryOperand token => exact (h token rfl).isUnbroken.between (by decide) (by decide)

/-- A fault that cites a word is reported within a line. -/
theorem Fault.CitesWord.isUnbroken_message {fault : Fault} (h : fault.CitesWord) :
    Text.IsUnbroken fault.message := by
  cases fault with
  | malformed reason =>
    exact (by decide : Text.IsUnbroken "malformed statement: ").append
      (Malformation.isUnbroken_message h)
  | badOperand mnemonic operand =>
    exact (h operand rfl).isUnbroken.between
      (mnemonic.isUnbroken_name.between (by decide) (by decide)) (by decide)
  | undefinedSymbol name => exact (h name rfl).isUnbroken.between (by decide) (by decide)
  | danglingSymbol index => exact (Text.isUnbroken_repr index).between (by decide) (by decide)
  | unplacedLiteral text => exact (h text rfl).isUnbroken.between (by decide) (by decide)
  | danglingLiteral index => exact (Text.isUnbroken_repr index).between (by decide) (by decide)
  | unknownMnemonic token => exact (h token rfl).isUnbroken.between (by decide) (by decide)
  | overflow field => exact field.isUnbroken_message
  | locationOverflow location words =>
    exact ((Text.isUnbroken_repr words).between (by decide) (by decide)).append
      (Text.isUnbroken_repr location)
  | redefinition name previous =>
    exact ((h name rfl).isUnbroken.between (by decide) (by decide)).append
      (Text.isUnbroken_repr previous)
  | missingStart => decide
  | missingEnd => decide

private theorem Diagnostic.isUnbroken_text {diagnostic : Diagnostic}
    (h : diagnostic.fault.CitesWord) : Text.IsUnbroken diagnostic.text := by
  have hname : Text.IsUnbroken diagnostic.severity.name := by
    cases diagnostic.severity <;> decide
  have hline := (Text.isUnbroken_repr diagnostic.line).between
    (by decide : Text.IsUnbroken "line ") (by decide : Text.IsUnbroken ": ")
  exact (hname.between hline (by decide)).append h.isUnbroken_message

/-! ### What lines and tables hold -/

private theorem Fault.citesWord_of_cited?_eq_none {fault : Fault} (h : fault.cited? = none) :
    fault.CitesWord := by
  intro cited hcited
  rw [h] at hcited
  cases hcited

private theorem Fault.citesWord_of_cited?_eq_some {fault : Fault} {text : String}
    (h : fault.cited? = some text) (hword : IsWord text) : fault.CitesWord := by
  intro cited hcited
  rw [h] at hcited
  cases hcited
  exact hword

namespace SourceLine

/-- All that is read from a line are words. -/
theorem holdsWords_of_ofText {line : String} {source : SourceLine} (h : ofText line = .ok source) :
    source.HoldsWords := by
  have hwords : ∀ word ∈ (Text.tokens line.toList).map String.ofList, IsWord word := fun _ hmem =>
    isWord_of_mem_tokens hmem
  rw [ofText_eq] at h
  generalize (Text.tokens line.toList).map String.ofList = tokens at h hwords
  cases source with
  | literal text =>
    obtain ⟨token, rfl, -, hread⟩ | hread := ofTokens_cases tokens
    · rw [hread] at h
      cases h
      exact hwords text List.mem_cons_self
    · rw [hread] at h
      cases hstatement : Statement.ofTokens tokens <;> simp [hstatement, Except.map] at h
  | statement content =>
    obtain ⟨token, -, rfl, -⟩ :=
      Statement.ofTokens_eq_ok_iff.mp (ofTokens_eq_statement_iff.mp h)
    refine ⟨fun label hlabel => hwords label ?_, fun operand hoperand => hwords operand ?_⟩
    · exact List.mem_append_left _ (Option.mem_toList.mpr hlabel)
    · exact List.mem_append_right _ (List.mem_cons_of_mem _ hoperand)

theorem HoldsWords.operandName? {statement : Statement} {name : String}
    (h : (SourceLine.statement statement).HoldsWords) (hname : statement.operandName? = some name) :
    IsWord name := by
  rw [Statement.operandName?] at hname
  split at hname
  · exact h.2 name (Operands.mem_toList_of_memory? (Option.filter_eq_some_iff.mp hname).1)
  · cases hname

theorem HoldsWords.literalUse? {source : SourceLine} {text : String} (h : source.HoldsWords)
    (huse : source.literalUse? = some text) : IsWord text := by
  cases source with
  | literal other =>
    cases huse
    exact h
  | statement content =>
    rw [SourceLine.literalUse?] at huse
    split at huse
    · exact h.2 text (Operands.mem_toList_of_memory? (Option.filter_eq_some_iff.mp huse).1)
    · cases huse

/-- What a line mentions is written in it. -/
private theorem HoldsWords.mentionsOnly {source : SourceLine} (h : source.HoldsWords) :
    source.MentionsOnly IsWord IsWord := by
  refine ⟨fun name hname => ?_, fun _ huse => h.literalUse? huse⟩
  cases source with
  | literal text => cases hname
  | statement content =>
    rcases List.mem_append.mp hname with hlabel | hoperand
    · exact h.1 name (Option.mem_toList.mp hlabel)
    · exact h.operandName? (Option.mem_toList.mp hoperand)

/-- A line that cannot be read is reported with one of its words. -/
private theorem citesWord_of_ofText {line : String} {fault : Fault}
    (h : ofText line = .error fault) : fault.CitesWord := by
  cases unread_of_ofText h with
  | empty => exact Fault.citesWord_of_cited?_eq_none rfl
  | badLabel htoken => exact Fault.citesWord_of_cited?_eq_some rfl (isWord_of_mem_tokens htoken)
  | tooManyOperands => exact Fault.citesWord_of_cited?_eq_none rfl
  | unknownMnemonic htoken =>
    exact Fault.citesWord_of_cited?_eq_some rfl (isWord_of_mem_tokens htoken)

end SourceLine

/-- A statement is blamed for nothing but its words. -/
theorem Statement.Blamed.citesWord {statement : Statement} {fault : Fault}
    (h : statement.Blamed fault)
    (hwords : ∀ operand ∈ statement.operands.toList, IsWord operand) : fault.CitesWord := by
  cases h with
  | noRoom => exact Fault.citesWord_of_cited?_eq_none rfl
  | lateStart => exact Fault.citesWord_of_cited?_eq_none rfl
  | equWithoutLabel => exact Fault.citesWord_of_cited?_eq_none rfl
  | missingOperand => exact Fault.citesWord_of_cited?_eq_none rfl
  | operands hfault =>
    cases hfault with
    | badRegister hoperand => exact Fault.citesWord_of_cited?_eq_some rfl (hwords _ hoperand)
    | constantTooLarge hoperand => exact Fault.citesWord_of_cited?_eq_some rfl (hwords _ hoperand)
    | badMemoryOperand hoperand => exact Fault.citesWord_of_cited?_eq_some rfl (hwords _ hoperand)
    | badOperand hoperand => exact Fault.citesWord_of_cited?_eq_some rfl (hwords _ hoperand)
  | undefinedSymbol hname => exact Fault.citesWord_of_cited?_eq_some rfl (isWord_of_isName hname)

namespace Context

variable {context : Context}

private theorem citesWord_of_mem_bindLabel {label? : Option String}
    (hlabel : ∀ label ∈ label?, IsWord label) {address : Nat} {fault : Fault}
    (h : fault ∈ (context.bindLabel label? address).1) : fault.CitesWord := by
  cases label? with
  | none => cases h
  | some label =>
    obtain ⟨previous, -, rfl⟩ := Option.mem_map.mp (Option.mem_toList.mp h)
    exact Fault.citesWord_of_cited?_eq_some rfl (hlabel label rfl)

private theorem Executed.citesWord {source : SourceLine} {effect : Effect}
    (h : context.Executed (.ok source) effect) (hwords : source.HoldsWords) {fault : Fault}
    (hmem : fault ∈ effect.warnings) : fault.CitesWord := by
  cases h with
  | literal => cases hmem
  | performed => exact citesWord_of_mem_bindLabel hwords.1 hmem
  | incomplete => cases hmem
  | valueless => cases hmem
  | @equated _ label _ value _ hlabel =>
    have hlabels : ∀ other ∈ some label, IsWord other := hlabel ▸ hwords.1
    have hbound : fault ∈ (context.bindLabel (some label) value).1 := hmem
    exact citesWord_of_mem_bindLabel hlabels hbound

/-- A line is blamed for nothing but its words. -/
theorem citesWord_of_execute {line : String} {fault : Fault}
    (h : (context.execute (SourceLine.ofText line)).result = .error fault) : fault.CitesWord := by
  cases hread : SourceLine.ofText line with
  | error unread =>
    rw [hread] at h
    cases h
    exact SourceLine.citesWord_of_ofText hread
  | ok source =>
    rw [hread] at h
    have hwords := SourceLine.holdsWords_of_ofText hread
    cases source with
    | literal text => cases h
    | statement statement => exact (blamed_of_executeStatement h).citesWord hwords.2

/-- A record is blamed for nothing but a row of the tables. -/
theorem Unencoded.citesWord {fault : Fault} (h : context.Unencoded fault)
    (hcontext : context.HoldsWords) : fault.CitesWord := by
  cases h with
  | overflow => exact Fault.citesWord_of_cited?_eq_none rfl
  | danglingSymbol => exact Fault.citesWord_of_cited?_eq_none rfl
  | undefinedSymbol hname => exact Fault.citesWord_of_cited?_eq_some rfl (hcontext.names _ hname)
  | danglingLiteral => exact Fault.citesWord_of_cited?_eq_none rfl
  | unplacedLiteral htext => exact Fault.citesWord_of_cited?_eq_some rfl (hcontext.texts _ htext)

end Context

/-! ### Lines and programs -/

namespace Trace

theorem CitesWords.append {earlier later : Trace} (h : earlier.CitesWords)
    (h' : later.CitesWords) : (earlier.append later).CitesWords := by
  intro diagnostic hmem
  rcases List.mem_append.mp hmem with hearlier | hlater
  · exact h diagnostic hearlier
  · exact h' diagnostic hlater

private theorem citesWords_ofLine {number address : Nat} {warnings : List Fault}
    {result : Except Fault (Option Record)} (hwarnings : ∀ fault ∈ warnings, fault.CitesWord)
    (hresult : ∀ fault, result = .error fault → fault.CitesWord) :
    (ofLine number address warnings result).CitesWords := by
  have hwarned : ∀ diagnostic ∈ warnings.map (Diagnostic.mk number .warning),
      diagnostic.fault.CitesWord := by
    intro diagnostic hmem
    obtain ⟨fault, hfault, rfl⟩ := List.mem_map.mp hmem
    exact hwarnings fault hfault
  intro diagnostic hmem
  cases result with
  | ok record? => exact hwarned diagnostic hmem
  | error fault =>
    rcases List.mem_append.mp hmem with hearlier | hlast
    · exact hwarned diagnostic hearlier
    · rw [List.mem_singleton.mp hlast]
      exact hresult fault rfl

end Trace

private theorem citesWord_of_startAddress {operands : Operands} {fault : Fault}
    (hwords : ∀ operand ∈ operands.toList, IsWord operand)
    (h : fault ∈ (startAddress operands).1) : fault.CitesWord := by
  rw [startAddress] at h
  split at h
  · cases h
  · rename_i operand hoperand
    split at h
    · cases h
    · rw [List.mem_singleton.mp h]
      exact Fault.citesWord_of_cited?_eq_some rfl
        (hwords operand (Operands.mem_toList_of_first? hoperand))

namespace Scan

variable {scan : Scan} {number : Nat} {line : String} {outcome : Trace × Scan}

private theorem Stepped.citesWords (h : scan.Stepped number line outcome) :
    outcome.1.CitesWords := by
  cases h with
  | idle => exact fun diagnostic hmem => absurd hmem List.not_mem_nil
  | opened _ _ hread =>
    have hwords := SourceLine.holdsWords_of_ofText hread
    refine Trace.citesWords_ofLine (fun fault hmem => ?_) fun fault hfault => by cases hfault
    rcases List.mem_append.mp hmem with hunusable | hrebound
    · exact citesWord_of_startAddress hwords.2 hunusable
    · exact Context.citesWord_of_mem_bindLabel hwords.1 hrebound
  | @proceeded warnings _ _ hwarnings =>
    refine Trace.citesWords_ofLine (fun fault hmem => ?_) fun fault =>
      Context.citesWord_of_execute
    rcases List.mem_append.mp hmem with hopening | hlabel
    · rw [hwarnings] at hopening
      split_ifs at hopening
      · rw [List.mem_singleton.mp hopening]
        exact Fault.citesWord_of_cited?_eq_none rfl
      · cases hopening
    · have hexecuted := scan.context.executed_execute (SourceLine.ofText line)
      cases hread : SourceLine.ofText line with
      | error unread =>
        rw [hread] at hlabel
        cases hlabel
      | ok source =>
        rw [hread] at hlabel hexecuted
        exact hexecuted.citesWord (SourceLine.holdsWords_of_ofText hread) hlabel

/-- What lines leave behind cites words. -/
theorem citesWords_run (number : Nat) (lines : List String) (scan : Scan) :
    (run number lines scan).1.CitesWords := by
  have hstart : Trace.CitesWords {} := fun _ hmem => absurd hmem List.not_mem_nil
  have hrun : (Trace.append {} (run number lines scan).1).CitesWords :=
    run_induction (motive := fun trace _ => trace.CitesWords) number lines {} hstart
      fun _ next place line htrace => htrace.append (next.stepped_step place line).citesWords
  exact hrun

private theorem citesWords_finish (scan : Scan) (count : Nat) :
    (scan.finish count).1.CitesWords := by
  intro diagnostic hmem
  refine Fault.citesWord_of_cited?_eq_none ?_
  rw [finish] at hmem
  split at hmem
  · cases hmem
  · split at hmem
    · rw [List.mem_singleton.mp hmem]
      rfl
    · rename_i hclose
      obtain ⟨location, words, rfl⟩ := Context.exists_locationOverflow_of_close hclose
      rcases List.mem_cons.mp hmem with rfl | hlast
      · rfl
      · rw [List.mem_singleton.mp hlast]
        rfl

end Scan

/-- The names and literals in the tables of a program are words. -/
theorem holdsWords_assemble (text : String) : (assemble text).context.HoldsWords := by
  have hrows : (assemble text).context.RowsAre IsWord IsWord :=
    rowsAre_assemble (fun _ _ hread => (SourceLine.holdsWords_of_ofText hread).mentionsOnly) text
  exact ⟨hrows.names, hrows.texts⟩

/-- What the diagnostics of a program cite are words. -/
theorem citesWord_of_mem_assemble {text : String} {diagnostic : Diagnostic}
    (h : diagnostic ∈ (assemble text).diagnostics) : diagnostic.fault.CitesWord := by
  rw [assemble_diagnostics, scanText_diagnostics] at h
  rcases List.mem_append.mp h with hreading | hencoding
  · rcases List.mem_append.mp hreading with hlines | hend
    · exact Scan.citesWords_run _ _ _ diagnostic hlines
    · exact Scan.citesWords_finish _ _ diagnostic hend
  · obtain ⟨record, -, -, hencode⟩ := Context.exists_record_of_mem_diagnostics hencoding
    exact (Context.unencoded_of_encode hencode).citesWord (holdsWords_assemble text)

/-- A diagnostic of a program is reported in one line. -/
theorem not_mem_text_of_mem_assemble {text : String} {diagnostic : Diagnostic}
    (h : diagnostic ∈ (assemble text).diagnostics) : '\n' ∉ diagnostic.text.toList :=
  Diagnostic.isUnbroken_text (citesWord_of_mem_assemble h)

end Assembler
