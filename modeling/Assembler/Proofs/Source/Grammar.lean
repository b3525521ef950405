import Assembler.Proofs.Source.Renaming
import Assembler.Proofs.Text.Word

/-!
# The grammar of source lines

The words of a line have places.  In front there may be a label: it is there when the line has at
least two words and the first of them spells no mnemonic.  Then comes the place of the mnemonic, and
behind it the operands.  A line is refused for the first thing that is wrong in this order: it has
no words, its label is no name, there is no mnemonic in the place of the mnemonic, or it has more
than two operands.  A literal that stands alone is no statement and is read as it stands.

What is read from a line can be written out again, as label, mnemonic and operands in any gaps, and
is read from the new line as well.

## Main definitions

* `Mnemonic.SpelledAs`, `IsMnemonic` : the spellings of mnemonics.
* `Statement.Parted` : the places of words.
* `SourceLine.Refused` : the words that are refused, each with its fault.
* `SourceLine.words` : what was read from a line, written out.
* `SourceLine.Grammatical` : a line and what is read from it.

## Main results

* `SourceLine.grammatical_ofText` : every line is read by the grammar.
-/

namespace Assembler

/-! ### Spellings of mnemonics -/

/-- A word spells a mnemonic, in whatever case its ASCII letters are. -/
def Mnemonic.SpelledAs (mnemonic : Mnemonic) (token : String) : Prop :=
  mnemonic.name = Text.upperCase token

instance (mnemonic : Mnemonic) (token : String) : Decidable (mnemonic.SpelledAs token) :=
  inferInstanceAs (Decidable (_ = _))

/-- A word spells some mnemonic. -/
def IsMnemonic (token : String) : Prop :=
  ∃ mnemonic : Mnemonic, mnemonic.SpelledAs token

namespace Mnemonic

variable {mnemonic : Mnemonic} {token : String}

private theorem upperCase_name (mnemonic : Mnemonic) :
    Text.upperCase mnemonic.name = mnemonic.name := by
  rcases mnemonic with word | word | word <;> cases word <;> decide +kernel

/-- Words that are alike in upper case spell the same. -/
private theorem ofToken?_congr {other : String} (h : Text.upperCase token = Text.upperCase other) :
    ofToken? token = ofToken? other := by
  simp only [ofToken?, Vocabulary.named?, h]

/-- A mnemonic is found under all its spellings and under no other word. -/
theorem ofToken?_eq_some_iff : ofToken? token = some mnemonic ↔ mnemonic.SpelledAs token := by
  constructor
  · exact name_of_ofToken?
  · intro h
    rw [← ofToken?_name mnemonic]
    exact ofToken?_congr (h.symm.trans mnemonic.upperCase_name.symm)

theorem ofToken?_eq_none_iff : ofToken? token = none ↔ ¬IsMnemonic token := by
  simp only [IsMnemonic, ← ofToken?_eq_some_iff, Option.eq_none_iff_forall_ne_some, not_exists,
    ne_eq]

private theorem isSome_ofToken?_iff : (ofToken? token).isSome = true ↔ IsMnemonic token := by
  simp only [IsMnemonic, ← ofToken?_eq_some_iff, Option.isSome_iff_exists]

theorem isName_name (mnemonic : Mnemonic) : Text.isName mnemonic.name.toList = true := by
  rcases mnemonic with word | word | word <;> cases word <;> decide

private theorem isWord_name (mnemonic : Mnemonic) : IsWord mnemonic.name :=
  isWord_of_isName mnemonic.isName_name

end Mnemonic

/-! ### The places of words -/

theorem Operands.ofList?_eq_none_iff {tokens : List String} :
    ofList? tokens = Option.none ↔ 2 < tokens.length := by
  rcases tokens with _ | ⟨first, _ | ⟨second, _ | ⟨third, rest⟩⟩⟩ <;> simp [ofList?]

namespace Statement

/-- The words of a line in their places: the label, the mnemonic, and the operands.  There is a
label when there are two words or more and the first is no mnemonic. -/
inductive Parted : List String → Option String → String → List String → Prop
  | bare {token : String} {operands : List String} (h : operands = [] ∨ IsMnemonic token) :
      Parted (token :: operands) none token operands
  | labelled {label token : String} {operands : List String} (h : ¬IsMnemonic label) :
      Parted (label :: token :: operands) (some label) token operands

variable {tokens operands : List String} {label? : Option String} {label token : String}
  {statement : Statement} {fault : Fault}

private theorem exists_parted (hne : tokens ≠ []) :
    ∃ label? token operands, Parted tokens label? token operands := by
  rcases tokens with _ | ⟨first, _ | ⟨second, rest⟩⟩
  · exact absurd rfl hne
  · exact ⟨none, first, [], .bare (.inl rfl)⟩
  · by_cases hfirst : IsMnemonic first
    · exact ⟨none, first, second :: rest, .bare (.inr hfirst)⟩
    · exact ⟨some first, second, rest, .labelled hfirst⟩

/-- Words whose label is a name are read place by place. -/
theorem Parted.ofTokens_eq (h : Parted tokens label? token operands)
    (hlabel : ∀ label ∈ label?, Text.isName label.toList = true) :
    ofTokens tokens = ofParts label? token operands := by
  cases h with
  | bare h =>
    obtain rfl | hmnemonic := h
    · rfl
    · exact ofTokens_of_isSome (Mnemonic.isSome_ofToken?_iff.mpr hmnemonic) operands
  | labelled h =>
    exact ofTokens_of_isLabel ⟨Mnemonic.ofToken?_eq_none_iff.mpr h, hlabel _ rfl⟩ token operands

/-- Words whose label is no name are refused, whatever the others are. -/
theorem Parted.ofTokens_of_badLabel (h : Parted tokens (some label) token operands)
    (hlabel : Text.isName label.toList = false) :
    ofTokens tokens = .error (.malformed (.badLabel label)) := by
  cases h with
  | labelled h =>
    rw [ofTokens, Mnemonic.ofToken?_eq_none_iff.mpr h, hlabel]
    rfl

private theorem ofParts_eq_error_iff :
    ofParts label? token operands = .error fault ↔
      (¬IsMnemonic token ∧ fault = .unknownMnemonic token) ∨
        ∃ mnemonic : Mnemonic, mnemonic.SpelledAs token ∧ 2 < operands.length ∧
          fault = .malformed (.tooManyOperands mnemonic operands.length) := by
  simp only [← Mnemonic.ofToken?_eq_none_iff, ← Mnemonic.ofToken?_eq_some_iff,
    ← Operands.ofList?_eq_none_iff]
  rw [ofParts]
  cases Mnemonic.ofToken? token with
  | none => simp [eq_comm]
  | some mnemonic => cases Operands.ofList? operands <;> simp [eq_comm]

/-- Words have places, and are read in them unless the label is no name. -/
theorem parted_cases (hne : tokens ≠ []) :
    ∃ label? token operands, Parted tokens label? token operands ∧
      ((∀ label ∈ label?, Text.isName label.toList = true) ∧
          ofTokens tokens = ofParts label? token operands ∨
        ∃ label, label? = some label ∧ Text.isName label.toList = false ∧
          ofTokens tokens = .error (.malformed (.badLabel label))) := by
  obtain ⟨label?, token, operands, hparted⟩ := exists_parted hne
  refine ⟨label?, token, operands, hparted, ?_⟩
  by_cases hlabel : ∀ label ∈ label?, Text.isName label.toList = true
  · exact .inl ⟨hlabel, hparted.ofTokens_eq hlabel⟩
  · obtain ⟨label, rfl, hbad⟩ : ∃ label, label? = some label ∧
        Text.isName label.toList = false := by simpa using hlabel
    exact .inr ⟨label, rfl, hbad, hparted.ofTokens_of_badLabel hbad⟩

/-- The words of a statement have the statement's parts in their places. -/
private theorem ofTokens_eq_ok_iff_parted :
    ofTokens tokens = .ok statement ↔
      ∃ token, Parted tokens statement.label token statement.operands.toList ∧
        (∀ label ∈ statement.label, Text.isName label.toList = true) ∧
        statement.mnemonic.SpelledAs token := by
  constructor
  · intro h
    have hne : tokens ≠ [] := by
      rintro rfl
      cases h
    obtain ⟨label?, token, operands, hparted, ⟨hlabel, hread⟩ | ⟨label, -, -, hread⟩⟩ :=
      parted_cases hne
    · rw [hread, ofParts_eq_ok_iff] at h
      obtain ⟨hmnemonic, rfl, rfl⟩ := h
      exact ⟨token, hparted, hlabel, Mnemonic.ofToken?_eq_some_iff.mp hmnemonic⟩
    · rw [hread] at h
      cases h
  · rintro ⟨token, hparted, hlabel, hmnemonic⟩
    rw [hparted.ofTokens_eq hlabel, ofParts_eq_ok_iff]
    exact ⟨Mnemonic.ofToken?_eq_some_iff.mpr hmnemonic, rfl, rfl⟩

end Statement

namespace SourceLine

open Statement (Parted)

/-! ### Refusals -/

/-- The words that are refused, each with the first thing that is wrong. -/
inductive Refused : List String → Fault → Prop
  | empty : Refused [] (.malformed .empty)
  | badLabel {tokens operands : List String} {label token : String}
      (hparted : Parted tokens (some label) token operands)
      (hlabel : Text.isName label.toList = false) :
      Refused tokens (.malformed (.badLabel label))
  /-- A literal that stands alone is not refused. -/
  | unknownMnemonic {tokens operands : List String} {label? : Option String} {token : String}
      (hparted : Parted tokens label? token operands)
      (hlabel : ∀ label ∈ label?, Text.isName label.toList = true)
      (hmnemonic : ¬IsMnemonic token)
      (hliteral : ∀ text, tokens = [text] → beginsLiteral text = false) :
      Refused tokens (.unknownMnemonic token)
  | tooManyOperands {tokens operands : List String} {label? : Option String} {token : String}
      {mnemonic : Mnemonic} (hparted : Parted tokens label? token operands)
      (hlabel : ∀ label ∈ label?, Text.isName label.toList = true)
      (hmnemonic : mnemonic.SpelledAs token) (hmany : 2 < operands.length) :
      Refused tokens (.malformed (.tooManyOperands mnemonic operands.length))

/-- What was read from a line, written out: a literal as it stands, or the label of a statement, the
name of its mnemonic and its operands. -/
def words : SourceLine → List String
  | literal text => [text]
  | statement content =>
    content.label.toList ++ content.mnemonic.name :: content.operands.toList

variable {tokens : List String} {text : String} {fault : Fault}

private theorem ofTokens_of_beginsLiteral (h : beginsLiteral text = true) :
    ofTokens [text] = .ok (.literal text) :=
  if_pos h

theorem ofTokens_of_not_literal (h : ∀ text, tokens = [text] → beginsLiteral text = false) :
    ofTokens tokens = (Statement.ofTokens tokens).map .statement := by
  obtain ⟨token, rfl, hliteral, -⟩ | hread := ofTokens_cases tokens
  · rw [h token rfl] at hliteral
    cases hliteral
  · exact hread

theorem ofTokens_eq_literal_iff :
    ofTokens tokens = .ok (.literal text) ↔ tokens = [text] ∧ beginsLiteral text = true := by
  constructor
  · intro h
    obtain ⟨token, rfl, hliteral, hread⟩ | hread := ofTokens_cases tokens
    · cases hread.symm.trans h
      exact ⟨rfl, hliteral⟩
    · rw [hread] at h
      cases hstatement : Statement.ofTokens tokens <;> simp [hstatement, Except.map] at h
  · rintro ⟨rfl, hliteral⟩
    exact ofTokens_of_beginsLiteral hliteral

/-- Words are refused as a line when they are refused as a statement and are no literal. -/
private theorem ofTokens_eq_error_iff :
    ofTokens tokens = .error fault ↔
      (∀ text, tokens = [text] → beginsLiteral text = false) ∧
        Statement.ofTokens tokens = .error fault := by
  constructor
  · intro h
    have hliteral : ∀ text, tokens = [text] → beginsLiteral text = false := by
      rintro text rfl
      rw [← Bool.not_eq_true]
      intro hbegins
      rw [ofTokens_of_beginsLiteral hbegins] at h
      cases h
    rw [ofTokens_of_not_literal hliteral] at h
    refine ⟨hliteral, ?_⟩
    cases hstatement : Statement.ofTokens tokens with
    | ok statement => simp [hstatement, Except.map] at h
    | error other => simpa [hstatement, Except.map] using h
  · rintro ⟨hliteral, h⟩
    rw [ofTokens_of_not_literal hliteral, h]
    rfl

/-- Exactly these words are refused, with these faults. -/
theorem refused_iff : ofTokens tokens = .error fault ↔ Refused tokens fault := by
  rw [ofTokens_eq_error_iff]
  constructor
  · rintro ⟨hliteral, h⟩
    by_cases hne : tokens = []
    · subst hne
      cases h
      exact .empty
    obtain ⟨label?, token, operands, hparted, ⟨hlabel, hread⟩ | ⟨label, rfl, hbad, hread⟩⟩ :=
      Statement.parted_cases hne
    · rw [hread, Statement.ofParts_eq_error_iff] at h
      obtain ⟨hmnemonic, rfl⟩ | ⟨mnemonic, hmnemonic, hmany, rfl⟩ := h
      · exact .unknownMnemonic hparted hlabel hmnemonic hliteral
      · exact .tooManyOperands hparted hlabel hmnemonic hmany
    · rw [hread] at h
      cases h
      exact .badLabel hparted hbad
  · intro h
    cases h with
    | empty => exact ⟨by simp, rfl⟩
    | badLabel hparted hlabel =>
      refine ⟨?_, hparted.ofTokens_of_badLabel hlabel⟩
      rintro text rfl
      cases hparted
    | unknownMnemonic hparted hlabel hmnemonic hliteral =>
      refine ⟨hliteral, ?_⟩
      rw [hparted.ofTokens_eq hlabel, Statement.ofParts_eq_error_iff]
      exact .inl ⟨hmnemonic, rfl⟩
    | tooManyOperands hparted hlabel hmnemonic hmany =>
      refine ⟨?_, ?_⟩
      · rintro text rfl
        cases hparted
        simp at hmany
      · rw [hparted.ofTokens_eq hlabel, Statement.ofParts_eq_error_iff]
        exact .inr ⟨_, hmnemonic, hmany, rfl⟩

/-! ### Written out again -/

/-- What was read is read again from its words. -/
private theorem ofTokens_words {source : SourceLine} (h : ofTokens tokens = .ok source) :
    ofTokens source.words = .ok source := by
  cases source with
  | literal text => exact ofTokens_of_beginsLiteral (ofTokens_eq_literal_iff.mp h).2
  | statement content =>
    rw [ofTokens_eq_statement_iff, Statement.ofTokens_eq_ok_iff] at h ⊢
    obtain ⟨-, -, -, hlabel⟩ := h
    exact ⟨content.mnemonic.name, Mnemonic.ofToken?_name _, rfl, hlabel⟩

/-- What is written out are single words if what was read are. -/
private theorem isWord_of_mem_words {source : SourceLine} (h : ofTokens tokens = .ok source)
    (htokens : ∀ token ∈ tokens, IsWord token) : ∀ word ∈ source.words, IsWord word := by
  intro word hword
  cases source with
  | literal text =>
    obtain ⟨rfl, -⟩ := ofTokens_eq_literal_iff.mp h
    exact htokens word hword
  | statement content =>
    obtain ⟨token, -, rfl, -⟩ := Statement.ofTokens_eq_ok_iff.mp (ofTokens_eq_statement_iff.mp h)
    simp only [words, List.mem_append, List.mem_cons] at hword
    obtain hlabel | rfl | hoperand := hword
    · exact htokens word (by simp [hlabel])
    · exact content.mnemonic.isWord_name
    · exact htokens word (by simp [hoperand])

/-! ### The grammar -/

/-- A line with its words, and what is read from it. -/
structure Grammatical (line : String) (tokens : List String) : Prop where
  worded : ∀ words, Text.Worded line.toList words ↔ words = tokens.map String.toList
  literal_iff : ∀ text, ofText line = .ok (.literal text) ↔
    tokens = [text] ∧ beginsLiteral text = true
  statement_iff : ∀ content, ofText line = .ok (.statement content) ↔
    ∃ token, Parted tokens content.label token content.operands.toList ∧
      (∀ label ∈ content.label, Text.isName label.toList = true) ∧
      content.mnemonic.SpelledAs token
  refused_iff : ∀ fault, ofText line = .error fault ↔ Refused tokens fault
  /-- Whatever line has the words that are written out. -/
  rewritten : ∀ source, ofText line = .ok source → ∀ other : String,
    Text.Worded other.toList (source.words.map String.toList) → ofText other = .ok source
  /-- There are such lines, with spaces and commas between the words. -/
  spaced : ∀ source, ofText line = .ok source → ∀ gap : List Char, gap ≠ [] →
    (∀ c ∈ gap, c = ' ' ∨ c = ',') →
      ofText (String.ofList (gap.intercalate (source.words.map String.toList))) = .ok source

/-- What is read from a line with the same words as what was read before. -/
theorem ofText_of_words {line other : String} {source : SourceLine} (h : ofText line = .ok source)
    (hother : Text.tokens other.toList = source.words.map String.toList) :
    ofText other = .ok source := by
  rw [ofText_eq] at h
  rw [ofText_eq, hother, List.map_map]
  simpa [Function.comp_def] using ofTokens_words h

/-- Every line is read by the grammar. -/
theorem grammatical_ofText (line : String) :
    Grammatical line ((Text.tokens line.toList).map String.ofList) where
  worded words := by
    rw [Text.worded_iff, List.map_map]
    simp [Function.comp_def]
  literal_iff text := by
    rw [ofText_eq]
    exact ofTokens_eq_literal_iff
  statement_iff content := by
    rw [ofText_eq, ofTokens_eq_statement_iff]
    exact Statement.ofTokens_eq_ok_iff_parted
  refused_iff fault := by
    rw [ofText_eq]
    exact refused_iff
  rewritten source h other hother := ofText_of_words h (Text.worded_iff.mp hother).symm
  spaced source h gap hne hgap := by
    refine ofText_of_words h ?_
    have hseparators : ∀ c ∈ gap, Text.isSeparator c = true := by
      intro c hc
      obtain rfl | rfl := hgap c hc <;> decide
    rw [String.toList_ofList, Text.tokens_intercalate hne hseparators]
    intro word hword
    obtain ⟨text, htext, rfl⟩ := List.mem_map.mp hword
    rw [ofText_eq] at h
    exact isWord_of_mem_words h (fun _ => isWord_of_mem_tokens) text htext

end SourceLine

end Assembler
