import Assembler.Proofs.Text.Token
import Assembler.Source.Statement

/-!
# How statements are written

A statement is written as its label, a word that spells its mnemonic, and its operands.  The label
is a name and no mnemonic.  Conversely words of this form are read as that statement, so a label or
an operand can be replaced without the rest of the statement being read in another way.

## Main definitions

* `Operands.mapMemory`, `Operands.mapFirst` : operands with one of them changed.
* `Statement.IsLabel` : the words that may be labels.
* `Statement.Unread` : what is said about words that are no statement.

## Main results

* `Statement.ofTokens_eq_ok_iff` : the words of a statement.
* `SourceLine.ofTokens_eq_statement_iff` : a line holds a statement if its words do.
* `SourceLine.unread_of_ofText` : what is said about a line that cannot be read.
-/

namespace Assembler

/-! ### Operands -/

namespace Operands

variable {operands : Operands} {operand : String} {change : String → String}

/-- Operands with another memory operand. -/
def mapMemory (change : String → String) : Operands → Operands
  | none => none
  | one operand => one (change operand)
  | two first second => two first (change second)

/-- Operands with another operand that directives use. -/
def mapFirst (change : String → String) : Operands → Operands
  | none => none
  | one operand => one (change operand)
  | two first second => two (change first) second

theorem memory?_mapMemory (change : String → String) (operands : Operands) :
    (operands.mapMemory change).memory? = operands.memory?.map change := by
  cases operands <;> rfl

theorem length_toList_mapMemory (change : String → String) (operands : Operands) :
    (operands.mapMemory change).toList.length = operands.toList.length := by
  cases operands <;> rfl

theorem length_toList_mapFirst (change : String → String) (operands : Operands) :
    (operands.mapFirst change).toList.length = operands.toList.length := by
  cases operands <;> rfl

theorem mapMemory_id (operands : Operands) : operands.mapMemory id = operands := by
  cases operands <;> rfl

theorem mapFirst_id (operands : Operands) : operands.mapFirst id = operands := by
  cases operands <;> rfl

/-- Each operand stays, or it is the one that changes. -/
theorem of_mem_toList_mapMemory (h : operand ∈ (operands.mapMemory change).toList) :
    ∃ old ∈ operands.toList, operand = old ∨ operand = change old := by
  cases operands with
  | none => cases h
  | one old => exact ⟨old, List.mem_singleton_self old, .inr (List.mem_singleton.mp h)⟩
  | two first second =>
    obtain rfl | hsecond := List.mem_cons.mp h
    · exact ⟨operand, List.mem_cons_self, .inl rfl⟩
    · exact ⟨second, List.mem_cons_of_mem _ (List.mem_singleton_self second),
        .inr (List.mem_singleton.mp hsecond)⟩

theorem of_mem_toList_mapFirst (h : operand ∈ (operands.mapFirst change).toList) :
    ∃ old ∈ operands.toList, operand = old ∨ operand = change old := by
  cases operands with
  | none => cases h
  | one old => exact ⟨old, List.mem_singleton_self old, .inr (List.mem_singleton.mp h)⟩
  | two first second =>
    obtain hfirst | hsecond := List.mem_cons.mp h
    · exact ⟨first, List.mem_cons_self, .inr hfirst⟩
    · rw [List.mem_singleton.mp hsecond]
      exact ⟨second, List.mem_cons_of_mem _ (List.mem_singleton_self second), .inl rfl⟩

theorem mapMemory_eq_self
    (h : ∀ operand, operands.memory? = some operand → change operand = operand) :
    operands.mapMemory change = operands := by
  cases operands with
  | none => rfl
  | one operand => exact congrArg one (h operand rfl)
  | two register operand => exact congrArg (two register) (h operand rfl)

/-- The last operand of an instruction that addresses memory is its memory operand. -/
theorem toList_mapMemory (h : operands.memory? = some operand) (change : String → String) :
    operands.toList = operands.toList.dropLast ++ [operand] ∧
      (operands.mapMemory change).toList = operands.toList.dropLast ++ [change operand] := by
  cases operands with
  | none => cases h
  | one other =>
    obtain rfl := Option.some.inj h
    exact ⟨rfl, rfl⟩
  | two register other =>
    obtain rfl := Option.some.inj h
    exact ⟨rfl, rfl⟩

end Operands

/-! ### Words -/

/-- A mnemonic is found only under its own name. -/
theorem Mnemonic.name_of_ofToken? {token : String} {mnemonic : Mnemonic}
    (h : ofToken? token = some mnemonic) : mnemonic.name = Text.upperCase token := by
  simp only [ofToken?, Option.or_eq_some_iff, Option.map_eq_some_iff] at h
  obtain ⟨word, hword, rfl⟩ | ⟨-, ⟨word, hword, rfl⟩ | ⟨-, word, hword, rfl⟩⟩ := h
  · exact Vocabulary.name_of_named? hword
  · exact Vocabulary.name_of_named? hword
  · exact Vocabulary.name_of_named? hword

private theorem Mnemonic.isUpper_head?_name (mnemonic : Mnemonic) :
    mnemonic.name.toList.head?.any Char.isUpper = true := by
  rcases mnemonic with word | word | word <;> cases word <;> decide

/-- What begins with no letter is no mnemonic. -/
theorem Mnemonic.ofToken?_eq_none {token : String} {c : Char} (h : token.toList.head? = some c)
    (hc : c.toUpper.isUpper = false) : ofToken? token = none := by
  rw [Option.eq_none_iff_forall_ne_some]
  intro mnemonic hmnemonic
  have hupper := mnemonic.isUpper_head?_name
  rw [name_of_ofToken? hmnemonic, Text.upperCase, String.toList_ofList, List.head?_map, h] at hupper
  exact absurd (hc.symm.trans hupper) Bool.false_ne_true

/-- What begins like a literal is no mnemonic. -/
theorem Mnemonic.ofToken?_of_beginsLiteral {token : String} (h : beginsLiteral token = true) :
    ofToken? token = none :=
  ofToken?_eq_none (beq_iff_eq.mp h) (by decide)

namespace Statement

variable {label : Option String} {token : String} {tokens : List String} {statement : Statement}
  {fault : Fault}

theorem ofParts_eq_ok_iff :
    ofParts label token tokens = .ok statement ↔
      Mnemonic.ofToken? token = some statement.mnemonic ∧
        tokens = statement.operands.toList ∧ label = statement.label := by
  obtain ⟨label', mnemonic', operands'⟩ := statement
  rw [ofParts, ← Operands.ofList?_eq_some_iff]
  cases Mnemonic.ofToken? token with
  | none => simp
  | some mnemonic =>
    cases Operands.ofList? tokens with
    | none => simp
    | some operands =>
      simp only [Except.ok.injEq, Statement.mk.injEq, Option.some.injEq]
      exact ⟨fun ⟨hlabel, hmnemonic, hoperands⟩ => ⟨hmnemonic, hoperands, hlabel⟩,
        fun ⟨hmnemonic, hoperands, hlabel⟩ => ⟨hlabel, hmnemonic, hoperands⟩⟩

/-- A word may be the label of a statement. -/
def IsLabel (token : String) : Prop :=
  Mnemonic.ofToken? token = none ∧ Text.isName token.toList = true

theorem ofTokens_of_isSome (h : (Mnemonic.ofToken? token).isSome = true) (rest : List String) :
    ofTokens (token :: rest) = ofParts none token rest := by
  cases rest with
  | nil => rfl
  | cons operand rest => rw [ofTokens, if_pos h]

theorem ofTokens_of_isLabel {first : String} (h : IsLabel first) (token : String)
    (rest : List String) : ofTokens (first :: token :: rest) = ofParts (some first) token rest := by
  rw [ofTokens, h.1, if_neg (by simp), if_pos h.2]

/-- A statement is written as its label, its mnemonic and its operands. -/
theorem ofTokens_eq_ok_iff :
    ofTokens tokens = .ok statement ↔
      ∃ token, Mnemonic.ofToken? token = some statement.mnemonic ∧
        tokens = statement.label.toList ++ token :: statement.operands.toList ∧
        ∀ label ∈ statement.label, IsLabel label := by
  have hbare : ∀ {token rest}, ofParts none token rest = .ok statement →
      Mnemonic.ofToken? token = some statement.mnemonic ∧
        token :: rest = statement.label.toList ++ token :: statement.operands.toList ∧
        ∀ label ∈ statement.label, IsLabel label := by
    intro token rest h
    obtain ⟨hmnemonic, hoperands, hlabel⟩ := ofParts_eq_ok_iff.mp h
    rw [← hlabel, ← hoperands]
    exact ⟨hmnemonic, rfl, fun label hmem => by cases hmem⟩
  constructor
  · intro h
    rcases tokens with _ | ⟨first, _ | ⟨second, rest⟩⟩
    · cases h
    · exact ⟨first, hbare h⟩
    · rw [ofTokens] at h
      split_ifs at h with hfirst hname
      · exact ⟨first, hbare h⟩
      · obtain ⟨hmnemonic, hoperands, hlabel⟩ := ofParts_eq_ok_iff.mp h
        have hnone : Mnemonic.ofToken? first = none := by simpa using hfirst
        rw [← hlabel, ← hoperands]
        refine ⟨second, hmnemonic, rfl, fun label hmem => ?_⟩
        rw [← Option.mem_some_iff.mp hmem]
        exact ⟨hnone, hname⟩
  · rintro ⟨token, hmnemonic, rfl, hlabels⟩
    obtain ⟨label?, mnemonic, operands⟩ := statement
    have hparts : ofParts label? token operands.toList = .ok ⟨label?, mnemonic, operands⟩ :=
      ofParts_eq_ok_iff.mpr ⟨hmnemonic, rfl, rfl⟩
    cases label? with
    | none => exact (ofTokens_of_isSome (by rw [hmnemonic]; rfl) _).trans hparts
    | some label => exact (ofTokens_of_isLabel (hlabels label rfl) _ _).trans hparts

/-- What is said about words that are no statement. -/
inductive Unread (tokens : List String) : Fault → Prop
  | empty : Unread tokens (.malformed .empty)
  | badLabel {token : String} (htoken : token ∈ tokens) :
      Unread tokens (.malformed (.badLabel token))
  | tooManyOperands (mnemonic : Mnemonic) (count : Nat) :
      Unread tokens (.malformed (.tooManyOperands mnemonic count))
  | unknownMnemonic {token : String} (htoken : token ∈ tokens) :
      Unread tokens (.unknownMnemonic token)

private theorem unread_of_ofParts (htoken : token ∈ tokens) {operands : List String}
    (h : ofParts label token operands = .error fault) : Unread tokens fault := by
  rw [ofParts] at h
  split at h
  · cases h
    exact .unknownMnemonic htoken
  · split at h
    · cases h
      exact .tooManyOperands _ _
    · cases h

/-- Words that are no statement are malformed, or their mnemonic is unknown. -/
private theorem unread_of_ofTokens (h : ofTokens tokens = .error fault) : Unread tokens fault := by
  unfold ofTokens at h
  split at h
  · cases h
    exact .empty
  · exact unread_of_ofParts List.mem_cons_self h
  · split_ifs at h
    · exact unread_of_ofParts List.mem_cons_self h
    · exact unread_of_ofParts (List.mem_cons_of_mem _ List.mem_cons_self) h
    · cases h
      exact .badLabel List.mem_cons_self

end Statement

/-! ### Lines -/

namespace SourceLine

variable {tokens : List String} {statement : Statement} {fault : Fault}

/-- The words of a line are a literal alone, or they are read as a statement. -/
theorem ofTokens_cases (tokens : List String) :
    (∃ token, tokens = [token] ∧ beginsLiteral token = true ∧
        ofTokens tokens = .ok (.literal token)) ∨
      ofTokens tokens = (Statement.ofTokens tokens).map .statement := by
  unfold ofTokens
  split
  · rename_i token
    split_ifs with hliteral
    · exact .inl ⟨token, rfl, hliteral, rfl⟩
    · exact .inr rfl
  · exact .inr rfl

/-- A line holds a statement if its words do. -/
theorem ofTokens_eq_statement_iff :
    ofTokens tokens = .ok (.statement statement) ↔ Statement.ofTokens tokens = .ok statement := by
  obtain ⟨token, rfl, hliteral, hread⟩ | hread := ofTokens_cases tokens
  · -- a literal is no mnemonic
    rw [hread]
    constructor
    · intro h
      cases h
    intro h
    have hparts : Statement.ofParts none token [] = .ok statement := h
    have hmnemonic := (Statement.ofParts_eq_ok_iff.mp hparts).1
    rw [Mnemonic.ofToken?_of_beginsLiteral hliteral] at hmnemonic
    cases hmnemonic
  · rw [hread]
    cases Statement.ofTokens tokens with
    | error fault => simp [Except.map]
    | ok other => simp [Except.map]

theorem ofText_eq (line : String) :
    ofText line = ofTokens ((Text.tokens line.toList).map String.ofList) := by
  rw [ofText, Text.tokens_trim]

/-- The carriage return at the end of a line does not matter. -/
theorem ofText_dropReturn (line : List Char) :
    ofText (String.ofList (Text.dropReturn line)) = ofText (String.ofList line) := by
  simp only [ofText_eq, String.toList_ofList, Text.tokens_dropReturn]

/-- A line that cannot be read is malformed, or its mnemonic is unknown. -/
theorem unread_of_ofText {line : String} (h : ofText line = .error fault) :
    Statement.Unread ((Text.tokens line.toList).map String.ofList) fault := by
  rw [ofText_eq] at h
  obtain ⟨token, -, -, hread⟩ | hread :=
    ofTokens_cases ((Text.tokens line.toList).map String.ofList)
  · rw [hread] at h
    cases h
  · rw [hread] at h
    cases hstatement : Statement.ofTokens ((Text.tokens line.toList).map String.ofList) with
    | ok statement => simp [hstatement, Except.map] at h
    | error other =>
      rw [hstatement] at h
      cases h
      exact Statement.unread_of_ofTokens hstatement

end SourceLine

end Assembler
