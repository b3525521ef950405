import Assembler.Proofs.Source.Statement
import Assembler.Proofs.Table.Renaming
import Assembler.Proofs.Text.Line

/-!
# Programs under other names

In the text of a program every name of a symbol is replaced: the labels of statements, the memory
operands of instructions that are names, and the symbols of expressions in ORIGIN and EQU.  Only
lines that hold a statement change.  Registers, branch conditions, literals and mnemonics are no
symbols, even where they are spelled like one.  White space, commas and line ends stay.

Each line of the new text is read as the statement of the old line under the other names.  This is
where it matters that no new name is a mnemonic: a label that were one would be read as the mnemonic
of its statement.

## Main definitions

* `Statement.rename`, `SourceLine.rename` : statements and lines under other names.
* `Renaming.tokens`, `Renaming.line`, `Renaming.text` : words, lines and texts.
* `RenamedLine` : lines that hold the same under other names.

## Main results

* `SourceLine.ofTokens_rename` : reading the words of a line under other names.
* `forall₂_lines_rename` : a text under other names, line by line.
-/

namespace Assembler

variable (f : Renaming)

/-! ### Statements -/

/-- The operands of a statement under other names: a memory operand that is a name, or the symbol of
an expression. -/
def Operands.rename (f : Renaming) (mnemonic : Mnemonic) (operands : Operands) : Operands :=
  match mnemonic with
  | .operation _ => operands.mapMemory f.word
  | _ => if mnemonic.takesExpression then operands.mapFirst f.expression else operands

/-- A statement under other names. -/
def Statement.rename (f : Renaming) (statement : Statement) : Statement :=
  ⟨statement.label.map f.word, statement.mnemonic,
    statement.operands.rename f statement.mnemonic⟩

/-- A source line under other names. -/
def SourceLine.rename (f : Renaming) : SourceLine → SourceLine
  | literal text => literal text
  | statement content => statement (content.rename f)

private theorem Operands.length_toList_rename (mnemonic : Mnemonic) (operands : Operands) :
    (operands.rename f mnemonic).toList.length = operands.toList.length := by
  unfold rename
  split
  · exact length_toList_mapMemory f.word operands
  · split_ifs
    · exact length_toList_mapFirst f.expression operands
    · rfl

/-- Every operand is an old one, or an old one with another name in it. -/
private theorem Operands.of_mem_toList_rename {mnemonic : Mnemonic} {operands : Operands}
    {word : String} (h : word ∈ (operands.rename f mnemonic).toList) :
    ∃ old ∈ operands.toList, word = old ∨ word = f.word old ∨ word = f.expression old := by
  unfold rename at h
  split at h
  · obtain ⟨old, hold, hword⟩ := of_mem_toList_mapMemory h
    exact ⟨old, hold, hword.imp_right .inl⟩
  · split_ifs at h
    · obtain ⟨old, hold, hword⟩ := of_mem_toList_mapFirst h
      exact ⟨old, hold, hword.imp_right .inr⟩
    · exact ⟨word, h, .inl rfl⟩

/-! ### Words -/

/-- A text is a single word. -/
def IsWord (text : String) : Prop :=
  text.toList ≠ [] ∧ ∀ c ∈ text.toList, Text.isSeparator c = false

theorem isWord_of_isName {text : String} (h : Text.isName text.toList = true) : IsWord text := by
  refine ⟨?_, fun c hc => Text.isSeparator_of_continuesName (Text.continuesName_of_isName h c hc)⟩
  intro hnil
  rw [hnil] at h
  cases h

theorem isWord_of_mem_tokens {line : List Char} {word : String}
    (h : word ∈ (Text.tokens line).map String.ofList) : IsWord word := by
  obtain ⟨piece, hpiece, rfl⟩ := List.mem_map.mp h
  obtain ⟨hmem, hne⟩ := List.mem_filter.mp hpiece
  rw [IsWord, String.toList_ofList]
  exact ⟨by simpa using hne, Text.mem_pieces_not_isSeparator hmem⟩

namespace Renaming

section

variable {f : Renaming} {text : String}

private theorem isWord_word (h : IsWord text) : IsWord (f.word text) := by
  by_cases hname : Text.isName text.toList = true
  · exact isWord_of_isName (by rwa [f.isName_word])
  · rwa [f.word_of_not_isName hname]

private theorem isWord_expression (h : IsWord text) : IsWord (f.expression text) := by
  cases hread : Expression.ofText? text with
  | none =>
    rw [expression, hread]
    exact h
  | some expression =>
    obtain ⟨hname, -⟩ := Expression.symbol_of_ofText? hread
    have hisWord : IsWord (f.word expression.symbol) := isWord_of_isName (by rwa [f.isName_word])
    obtain ⟨hne, hword⟩ := hisWord
    rw [Renaming.expression, hread, IsWord, String.toList_append, String.toList_ofList]
    refine ⟨List.append_ne_nil_of_left_ne_nil hne _, fun c hc => ?_⟩
    obtain hfront | hback := List.mem_append.mp hc
    · exact hword c hfront
    · exact h.2 c (List.dropWhile_subset _ hback)

end

/-- The words of a line under other names.  Only the words of a statement change, and its mnemonic
stays. -/
def tokens (tokens : List String) : List String :=
  match SourceLine.ofTokens tokens with
  | .ok (.statement statement) =>
    (statement.rename f).label.toList ++ (tokens.drop statement.label.toList.length).take 1 ++
      (statement.rename f).operands.toList
  | _ => tokens

/-- A line under other names, with its separators. -/
def line (line : List Char) : List Char :=
  Text.replaceWords line
    ((f.tokens ((Text.tokens line).map String.ofList)).map String.toList)

/-- The text of a program under other names. -/
def text (text : String) : String :=
  String.ofList (Text.mapLines f.line text.toList)

private theorem tokens_of_ne {words : List String}
    (h : ∀ statement, Statement.ofTokens words ≠ .ok statement) : f.tokens words = words := by
  unfold tokens
  split
  · rename_i statement hread
    exact absurd (SourceLine.ofTokens_eq_statement_iff.mp hread) (h statement)
  · rfl

/-- The words of a statement are its label, its mnemonic and its operands, and so they are under
other names. -/
theorem tokens_of_ok {words : List String} {statement : Statement}
    (h : Statement.ofTokens words = .ok statement) :
    ∃ token, Mnemonic.ofToken? token = some statement.mnemonic ∧
      words = statement.label.toList ++ token :: statement.operands.toList ∧
      f.tokens words =
        (statement.rename f).label.toList ++ token :: (statement.rename f).operands.toList ∧
      ∀ label ∈ statement.label, Statement.IsLabel label := by
  obtain ⟨token, hmnemonic, hwords, hlabel⟩ := Statement.ofTokens_eq_ok_iff.mp h
  refine ⟨token, hmnemonic, hwords, ?_, hlabel⟩
  rw [tokens, SourceLine.ofTokens_eq_statement_iff.mpr h]
  dsimp only
  rw [hwords, List.drop_left, List.take_succ_cons, List.take_zero, List.append_assoc]
  rfl

private theorem length_tokens (words : List String) : (f.tokens words).length = words.length := by
  cases h : Statement.ofTokens words with
  | error fault => rw [f.tokens_of_ne (by simp [h])]
  | ok statement =>
    obtain ⟨token, -, hwords, hrenamed, -⟩ := f.tokens_of_ok h
    have hlabel : (statement.label.map f.word).toList.length = statement.label.toList.length := by
      cases statement.label <;> rfl
    rw [hrenamed, hwords]
    simp [Statement.rename, Operands.length_toList_rename, hlabel]

private theorem isWord_tokens {words : List String} (hwords : ∀ word ∈ words, IsWord word) :
    ∀ word ∈ f.tokens words, IsWord word := by
  cases h : Statement.ofTokens words with
  | error fault => rwa [f.tokens_of_ne (by simp [h])]
  | ok statement =>
    obtain ⟨token, -, rfl, hrenamed, -⟩ := f.tokens_of_ok h
    intro word hmem
    rw [hrenamed, List.mem_append, List.mem_cons] at hmem
    obtain hlabel | rfl | hoperand := hmem
    · obtain ⟨label, hold, rfl⟩ := Option.map_eq_some_iff.mp (Option.mem_toList.mp hlabel)
      exact isWord_word (hwords label (List.mem_append_left _ (Option.mem_toList.mpr hold)))
    · exact hwords word (List.mem_append_right _ List.mem_cons_self)
    · obtain ⟨old, hold, hword⟩ := Operands.of_mem_toList_rename f hoperand
      have hisWord := hwords old (List.mem_append_right _ (List.mem_cons_of_mem token hold))
      obtain rfl | rfl | rfl := hword
      · exact hisWord
      · exact isWord_word hisWord
      · exact isWord_expression hisWord

end Renaming

/-- The words of a line under other names are read as the line under other names. -/
theorem SourceLine.ofTokens_rename (words : List String) :
    ofTokens (f.tokens words) = (ofTokens words).map (rename f) := by
  cases h : Statement.ofTokens words with
  | error fault =>
    rw [f.tokens_of_ne (by simp [h])]
    obtain ⟨token, -, -, hread⟩ | hread := ofTokens_cases words
    · rw [hread]
      rfl
    · rw [hread, h]
      rfl
  | ok statement =>
    obtain ⟨token, hmnemonic, -, hrenamed, hlabels⟩ := f.tokens_of_ok h
    have hread : ofTokens (f.tokens words) = .ok (.statement (statement.rename f)) := by
      rw [ofTokens_eq_statement_iff, Statement.ofTokens_eq_ok_iff]
      refine ⟨token, hmnemonic, hrenamed, fun label hlabel => ?_⟩
      -- the other name of a label is no mnemonic
      obtain ⟨old, hold, rfl⟩ := Option.map_eq_some_iff.mp hlabel
      have hname := (hlabels old hold).2
      exact ⟨f.ofToken?_word hname, by rwa [f.isName_word]⟩
    rw [hread, ofTokens_eq_statement_iff.mpr h]
    rfl

/-! ### Lines -/

/-- Lines that hold the same under other names. -/
structure RenamedLine (f : Renaming) (line line' : String) : Prop where
  blank : Text.isBlankText line'.toList = Text.isBlankText line.toList
  read : SourceLine.ofText line' = (SourceLine.ofText line).map (SourceLine.rename f)

namespace Renaming

private theorem isWord_tokens_line (line : List Char) :
    ∀ word ∈ f.tokens ((Text.tokens line).map String.ofList), IsWord word :=
  f.isWord_tokens fun _ hmem => isWord_of_mem_tokens hmem

private theorem tokens_line (line : List Char) :
    (Text.tokens (f.line line)).map String.ofList =
      f.tokens ((Text.tokens line).map String.ofList) := by
  have hwords := f.isWord_tokens_line line
  rw [Renaming.line, Text.tokens_replaceWords]
  · simp
  · rw [List.length_map, length_tokens, List.length_map]
  · intro word hmem
    obtain ⟨text, htext, rfl⟩ := List.mem_map.mp hmem
    exact hwords text htext

private theorem line_of_tokens_eq_nil {line : List Char} (h : Text.tokens line = []) :
    f.line line = line := by
  rw [Renaming.line, h]
  rfl

private theorem renamedLine_line (line : List Char) :
    RenamedLine f (String.ofList line) (String.ofList (f.line line)) := by
  constructor
  · rw [String.toList_ofList, String.toList_ofList]
    by_cases hnil : Text.tokens line = []
    · rw [f.line_of_tokens_eq_nil hnil]
    · have hne : Text.tokens (f.line line) ≠ [] := by
        rw [Ne, ← List.map_eq_nil_iff (f := String.ofList), tokens_line,
          ← List.length_eq_zero_iff, length_tokens]
        simpa using hnil
      rw [Text.isBlankText_of_tokens_ne_nil hne, Text.isBlankText_of_tokens_ne_nil hnil]
  · rw [SourceLine.ofText_eq, SourceLine.ofText_eq, String.toList_ofList, String.toList_ofList,
      tokens_line, SourceLine.ofTokens_rename]

private theorem not_mem_line {line : List Char} (h : '\n' ∉ line) : '\n' ∉ f.line line := by
  intro hmem
  have hwords := f.isWord_tokens_line line
  obtain hold | ⟨word, hword, hmem⟩ := Text.mem_replaceWords hmem
  · exact h hold
  · obtain ⟨text, htext, rfl⟩ := List.mem_map.mp hword
    have hseparator := (hwords text htext).2 _ hmem
    exact absurd hseparator (by decide)

private theorem line_eq_nil_iff (line : List Char) : f.line line = [] ↔ line = [] := by
  constructor
  · intro h
    have hlength := congrArg List.length (f.tokens_line line)
    rw [h, length_tokens, List.length_map, List.length_map] at hlength
    have hnil : Text.tokens line = [] := List.length_eq_zero_iff.mp hlength.symm
    rwa [f.line_of_tokens_eq_nil hnil] at h
  · rintro rfl
    exact f.line_of_tokens_eq_nil rfl

end Renaming

/-- The carriage return at the end of a line does not matter. -/
theorem RenamedLine.dropReturn {f : Renaming} {line line' : List Char}
    (h : RenamedLine f (String.ofList line) (String.ofList line')) :
    RenamedLine f (String.ofList (Text.dropReturn line))
      (String.ofList (Text.dropReturn line')) := by
  obtain ⟨hblank, hread⟩ := h
  constructor
  · simpa only [String.toList_ofList, Text.isBlankText_dropReturn] using hblank
  · rwa [SourceLine.ofText_dropReturn, SourceLine.ofText_dropReturn]

/-- The lines of a text under other names are its lines under other names. -/
theorem forall₂_lines_rename (text : List Char) :
    List.Forall₂ (fun line line' => RenamedLine f (String.ofList line) (String.ofList line'))
      (Text.lines text) (Text.lines (Text.mapLines f.line text)) := by
  apply Text.forall₂_lines_mapLines (fun _ => f.not_mem_line) f.line_eq_nil_iff
  · exact f.renamedLine_line
  · exact fun line => (f.renamedLine_line line).dropReturn

end Assembler
