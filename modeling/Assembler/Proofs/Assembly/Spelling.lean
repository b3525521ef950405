import Assembler.Proofs.Assembly.Limit
import Assembler.Proofs.Assembly.Simulation
import Assembler.Proofs.Assembly.Success

/-!
# Programs without names in their operands

In the text of a program, the last word of an instruction that addresses memory by a name is
replaced by the numeral of the address that the name has in the end.  All other words stay, and so
do the line ends.  The new text is a program with the same words at the same addresses and the same
report: symbols are only names for addresses.

## Main definitions

* `spelledOut` : the text of a program in which the memory operands that are names are replaced.
* `SpelledAlike` : what the two programs have in common.

## Main results

* `SourceLine.ofTokens_replaceLast` : reading the tokens of an instruction with another operand.
* `spelledLine_spellLine` : a line in which a name is replaced.
* `spelledAlike` : a program and its text without names in operands come to the same.
-/

namespace Assembler

/-! ### Replacing names in a text -/

/-- The numeral that takes the place of the last word of a line: that of the address of the memory
operand, where the line holds an instruction and the operand is a name with an address. -/
def spelledNumeral? (addressOf? : String → Option Nat) (line : String) : Option String :=
  match SourceLine.ofText line with
  | .ok (.statement ⟨_, .operation _, operands⟩) =>
    operands.memory?.bind fun operand =>
      if Text.isName operand.toList then (addressOf? operand).map Nat.repr else none
  | _ => none

/-- A line in which the numeral of its address takes the place of a name that is the memory operand
of an instruction. -/
def spellLine (addressOf? : String → Option Nat) (line : List Char) : List Char :=
  (spelledNumeral? addressOf? (String.ofList line)).elim line fun numeral =>
    Text.replaceLastWord line numeral.toList

/-- The text of a program in which every name that is the memory operand of an instruction is
replaced by the numeral of the address that the program gives to it in the end. -/
def spelledOut (text : String) : String :=
  String.ofList
    (Text.mapLines (spellLine (assemble text).context.symbols.addressOf?) text.toList)

/-! ### Reading tokens -/

/-- Replacing the last token of an instruction that addresses memory replaces its memory
operand. -/
theorem SourceLine.ofTokens_replaceLast {tokens : List String} {label : Option String}
    {opcode : Opcode} {operands : Operands} {operand : String}
    (h : ofTokens tokens = .ok (.statement ⟨label, .operation opcode, operands⟩))
    (hmemory : operands.memory? = some operand) (change : String → String) :
    ofTokens (tokens.dropLast ++ [change operand]) =
      .ok (.statement ⟨label, .operation opcode, operands.mapMemory change⟩) := by
  rw [ofTokens_eq_statement_iff, Statement.ofTokens_eq_ok_iff] at h ⊢
  obtain ⟨token, hmnemonic, rfl, hlabel⟩ := h
  obtain ⟨hold, hnew⟩ := Operands.toList_mapMemory hmemory change
  refine ⟨token, hmnemonic, ?_, hlabel⟩
  dsimp only
  rw [hnew, hold, ← List.cons_append, ← List.append_assoc, List.dropLast_concat,
    List.dropLast_concat, List.append_assoc]
  rfl

/-! ### Replacing a name in a line -/

section Line

variable {target : String → Option Nat}

/-- A line keeps all its words if nothing in it is spelled out, or it holds an instruction whose
memory operand is. -/
theorem spelledNumeral?_cases (target : String → Option Nat) (line : String) :
    (spelledNumeral? target line = none ∧
      (SourceLine.ofText line).map (SourceLine.spelled target) = SourceLine.ofText line) ∨
    ∃ label opcode operands operand address,
      SourceLine.ofText line = .ok (.statement ⟨label, .operation opcode, operands⟩) ∧
        operands.memory? = some operand ∧ spellOperand target operand = Nat.repr address ∧
        spelledNumeral? target line = some (Nat.repr address) := by
  rw [spelledNumeral?]
  generalize SourceLine.ofText line = source
  rcases source with fault | text | ⟨label, word | word | opcode, operands⟩
  · exact .inl ⟨rfl, rfl⟩
  · exact .inl ⟨rfl, rfl⟩
  · exact .inl ⟨rfl, rfl⟩
  · exact .inl ⟨rfl, rfl⟩
  · -- the operand is spelled out if it is a name with an address
    have hkept (hsame : ∀ operand, operands.memory? = some operand →
        spellOperand target operand = operand) :
        SourceLine.spelled target (.statement ⟨label, .operation opcode, operands⟩) =
          .statement ⟨label, .operation opcode, operands⟩ := by
      change SourceLine.statement ⟨_, _, operands.mapMemory (spellOperand target)⟩ = _
      rw [Operands.mapMemory_eq_self hsame]
    dsimp only [Except.map]
    cases hmemory : operands.memory? with
    | none =>
      refine .inl ⟨rfl, congrArg _ (hkept fun operand hoperand => ?_)⟩
      rw [hmemory] at hoperand
      cases hoperand
    | some operand =>
      rw [Option.bind_some]
      by_cases hname : Text.isName operand.toList = true
      · rw [if_pos hname]
        cases haddress : target operand with
        | none =>
          refine .inl ⟨rfl, congrArg _ (hkept fun other hother => ?_)⟩
          obtain rfl : operand = other := Option.some.inj (hmemory.symm.trans hother)
          rw [spellOperand, if_pos hname, haddress, Option.elim_none]
        | some address =>
          refine .inr ⟨label, opcode, operands, operand, address, rfl, hmemory, ?_, rfl⟩
          rw [spellOperand, if_pos hname, haddress, Option.elim_some]
      · rw [if_neg hname]
        refine .inl ⟨rfl, congrArg _ (hkept fun other hother => ?_)⟩
        obtain rfl : operand = other := Option.some.inj (hmemory.symm.trans hother)
        exact spellOperand_of_not_name hname

/-- What is left of a text when an instruction in it is read has words. -/
theorem tokens_ne_nil_of_ofText {line : List Char} {content : Statement}
    (h : SourceLine.ofText (String.ofList line) = .ok (.statement content)) :
    Text.tokens line ≠ [] := by
  intro hnone
  rw [SourceLine.ofText_eq, String.toList_ofList, hnone] at h
  cases h

/-- A line in which a name is replaced reads like the old one with the name spelled out. -/
theorem spelledLine_spellLine (target : String → Option Nat) (line : List Char) :
    SpelledLine target (String.ofList line) (String.ofList (spellLine target line)) := by
  obtain ⟨hnone, hsame⟩ | ⟨label, opcode, operands, operand, address, hread, hmemory, hspelled,
    hnumeral⟩ := spelledNumeral?_cases target (String.ofList line)
  · rw [spellLine, hnone, Option.elim_none]
    exact ⟨rfl, hsame.symm⟩
  · obtain ⟨hne, hword⟩ := Text.repr_word address
    have hwords := tokens_ne_nil_of_ofText hread
    have htokens := Text.tokens_replaceLastWord hwords hne fun c hc => (hword c hc).2
    rw [spellLine, hnumeral, Option.elim_some]
    constructor
    · rw [String.toList_ofList, String.toList_ofList, Text.isBlankText_of_tokens_ne_nil hwords]
      apply Text.isBlankText_of_tokens_ne_nil
      rw [htokens]
      exact List.append_ne_nil_of_right_ne_nil _ (List.cons_ne_nil _ _)
    · have htokens' : (Text.tokens (Text.replaceLastWord line address.repr.toList)).map
          String.ofList = ((Text.tokens line).map String.ofList).dropLast ++
            [spellOperand target operand] := by
        rw [htokens, List.map_append, List.map_dropLast, hspelled, List.map_singleton,
          String.ofList_toList]
      have hread' := hread
      rw [SourceLine.ofText_eq, String.toList_ofList] at hread'
      rw [SourceLine.ofText_eq, String.toList_ofList, htokens', hread,
        SourceLine.ofTokens_replaceLast hread' hmemory (spellOperand target)]
      rfl

/-- The carriage return at the end of a line does not matter. -/
private theorem spelledLine_dropReturn {line line' : List Char}
    (h : SpelledLine target (String.ofList line) (String.ofList line')) :
    SpelledLine target (String.ofList (Text.dropReturn line))
      (String.ofList (Text.dropReturn line')) := by
  obtain ⟨hblank, hread⟩ := h
  constructor
  · simpa only [String.toList_ofList, Text.isBlankText_dropReturn] using hblank
  · rwa [SourceLine.ofText_dropReturn, SourceLine.ofText_dropReturn]

private theorem spellLine_eq_nil_iff (line : List Char) :
    spellLine target line = [] ↔ line = [] := by
  obtain ⟨hnone, -⟩ | ⟨_, _, _, _, address, hread, -, -, hnumeral⟩ :=
    spelledNumeral?_cases target (String.ofList line)
  · rw [spellLine, hnone, Option.elim_none]
  · have hline : line ≠ [] := by
      rintro rfl
      exact tokens_ne_nil_of_ofText hread rfl
    rw [spellLine, hnumeral, Option.elim_some, Text.replaceLastWord]
    simp [hline]

private theorem not_mem_spellLine {line : List Char} (h : '\n' ∉ line) :
    '\n' ∉ spellLine target line := by
  intro hmem
  obtain ⟨hnone, -⟩ | ⟨_, _, _, _, address, -, -, -, hnumeral⟩ :=
    spelledNumeral?_cases target (String.ofList line)
  · rw [spellLine, hnone, Option.elim_none] at hmem
    exact h hmem
  · rw [spellLine, hnumeral, Option.elim_some] at hmem
    rcases Text.mem_replaceLastWord hmem with hold | hnew
    · exact h hold
    · exact absurd ((Text.repr_word address).2 _ hnew).1 (by decide)

end Line

/-- The lines of the new text are those of the old one with names spelled out. -/
private theorem forall₂_programLines_spelledOut (text : String) :
    List.Forall₂ (SpelledLine (assemble text).context.symbols.addressOf?) (programLines text)
      (programLines (spelledOut text)) := by
  rw [programLines, programLines, spelledOut, String.toList_ofList, List.forall₂_map_left_iff,
    List.forall₂_map_right_iff]
  apply Text.forall₂_lines_mapLines (fun _ => not_mem_spellLine) spellLine_eq_nil_iff
  · exact spelledLine_spellLine _
  · exact fun line => spelledLine_dropReturn (spelledLine_spellLine _ line)

/-! ### The two programs -/

/-- A name that is left in an operand has no address. -/
private theorem addressOf?_spellOperand {target : String → Option Nat} {operand : String}
    (h : Text.isName (spellOperand target operand).toList = true) :
    target (spellOperand target operand) = none := by
  by_cases hname : Text.isName operand.toList = true
  · rw [spellOperand, if_pos hname] at h ⊢
    cases haddress : target operand with
    | none => rwa [Option.elim_none]
    | some address =>
      have hnumeral := Text.isNumeral_toDigits address
      rw [haddress, Option.elim_some, Nat.toList_repr] at h
      rw [Text.isNumeral_of_isName h] at hnumeral
      cases hnumeral
  · rw [spellOperand_of_not_name hname] at h
    exact absurd h hname

/-- Reading a line in which names are spelled out gives a statement with names spelled out. -/
private theorem SpelledLine.exists_operand {target : String → Option Nat} {line line' : String}
    (h : SpelledLine target line line') {statement : Statement} {opcode : Opcode}
    (hread : SourceLine.ofText line' = .ok (.statement statement))
    (hmnemonic : statement.mnemonic = .operation opcode) {operand : String}
    (hmemory : statement.operands.memory? = some operand) :
    ∃ old, operand = spellOperand target old := by
  rw [h.read] at hread
  cases hsource : SourceLine.ofText line with
  | error fault =>
    rw [hsource] at hread
    cases hread
  | ok source =>
    cases source with
    | literal text =>
      rw [hsource] at hread
      cases hread
    | statement content =>
      rw [hsource] at hread
      obtain rfl : content.spelled target = statement :=
        SourceLine.statement.inj (Except.ok.inj hread)
      rw [Statement.mnemonic_spelled] at hmnemonic
      rw [Statement.spelled_of_operation hmnemonic, Operands.memory?_mapMemory] at hmemory
      obtain ⟨old, -, hold⟩ := Option.map_eq_some_iff.mp hmemory
      exact ⟨old, hold.symm⟩

/-- What a program and its text without names in operands have in common. -/
structure SpelledAlike (text : String) : Prop where
  /-- The lines are the same but for operands that are spelled out. -/
  lines : List.Forall₂ (SpelledLine (assemble text).context.symbols.addressOf?) (programLines text)
    (programLines (spelledOut text))
  /-- Without errors no instruction refers to a symbol any more. -/
  nameless : (assemble text).hasErrors = false →
    ∀ record ∈ (assemble (spelledOut text)).records, ∀ opcode register index,
      record.content ≠ .instruction opcode register (.symbol index)
  program : assembleProgram (spelledOut text) = assembleProgram text
  words : (assemble (spelledOut text)).words = (assemble text).words
  diagnostics : (assemble (spelledOut text)).diagnostics = (assemble text).diagnostics
  start : (assemble (spelledOut text)).context.start = (assemble text).context.start
  location : (assemble (spelledOut text)).context.location = (assemble text).context.location
  /-- The literals and the pools are the same. -/
  literals : (assemble (spelledOut text)).context.literals = (assemble text).context.literals
  /-- Symbols that are still in the table have the same addresses. -/
  symbols : ∀ symbol ∈ (assemble (spelledOut text)).context.symbols.symbols,
    symbol.address = (assemble text).context.symbols.addressOf? symbol.name

/-- An operand that refers to a symbol is a name. -/
private theorem Context.Referred.exists_name {context after : Context} {operand? : Option String}
    {index : Nat} (h : context.Referred operand? (.symbol index) after) :
    ∃ operand, operand? = some operand ∧ Text.isName operand.toList = true := by
  cases h with
  | symbol hname => exact ⟨_, rfl, hname⟩

/-- An instruction of the new program that refers to a symbol refers to one without an address. -/
private theorem exists_unspelled {target : String → Option Nat} {text text' : String}
    (hlines : List.Forall₂ (SpelledLine target) (programLines text) (programLines text'))
    {record : Located Record} (hmem : record ∈ (assemble text').records) {opcode : Opcode}
    {register index : Nat}
    (hcontent : record.content = .instruction opcode register (.symbol index)) :
    ∃ name, target name = none ∧ (assemble text').context.resolve (.symbol index) =
      match (assemble text').context.symbols.addressOf? name with
      | some address => .ok address
      | none => .error (.undefinedSymbol name) := by
  obtain ⟨line', statement, moved, after, hline', hread, hmnemonic, -, hrefer, hgrows⟩ :=
    exists_referred_of_mem_records hmem hcontent
  obtain ⟨operand, hmemory, hname⟩ := hrefer.exists_name
  -- the line is one of the old program in which the operand was spelled out
  obtain ⟨hlength', hget'⟩ := List.getElem?_eq_some_iff.mp hline'
  have hlength : record.line - 1 < (programLines text).length := by
    rw [hlines.length_eq]
    exact hlength'
  have hspelled := hlines.get hlength hlength'
  rw [List.get_eq_getElem, List.get_eq_getElem, hget'] at hspelled
  obtain ⟨old, rfl⟩ := hspelled.exists_operand hread hmnemonic hmemory
  rw [hmemory] at hrefer
  exact ⟨spellOperand target old, addressOf?_spellOperand hname,
    hrefer.resolve_symbol hgrows hname⟩

/-- In a program without errors, spelling names out leaves no instruction that refers to a
symbol. -/
private theorem nameless_of_spelled {text text' : String}
    (hlines : List.Forall₂ (SpelledLine (assemble text).context.symbols.addressOf?)
      (programLines text) (programLines text'))
    (hagrees : (assemble text).context.Agrees (assemble text').context)
    (hclean : (assemble text').hasErrors = false) {record : Located Record}
    (hmem : record ∈ (assemble text').records) (opcode : Opcode) (register index : Nat) :
    record.content ≠ .instruction opcode register (.symbol index) := by
  intro hcontent
  obtain ⟨name, hnone, hresolve⟩ := exists_unspelled hlines hmem hcontent
  rw [hagrees.addressOf?, hnone] at hresolve
  -- the record cannot be encoded
  have herror : (assemble text').context.encode record.content =
      .error (.undefinedSymbol name) := by
    rw [hcontent, Context.encode, hresolve]
  have hmissing := Context.mem_diagnostics_of_encode_eq_error hmem herror
  rw [(hasErrors_assemble.mp hclean).2] at hmissing
  exact absurd hmissing List.not_mem_nil

/-- What a program prints depends only on its words and its diagnostics. -/
private theorem assembleProgram_congr {text text' : String}
    (hwords : (assemble text').words = (assemble text).words)
    (hdiagnostics : (assemble text').diagnostics = (assemble text).diagnostics) :
    assembleProgram text' = assembleProgram text := by
  have hany : (assemble text').hasErrors = (assemble text).hasErrors := by
    rw [Assembly.hasErrors, hdiagnostics, Assembly.hasErrors]
  have hfailure : (assemble text').failure = (assemble text).failure := by
    rw [Assembly.failure, Assembly.errors, hdiagnostics, Assembly.failure, Assembly.errors]
  have hcode : (assemble text').machineCode = (assemble text).machineCode := by
    rw [Assembly.machineCode, hwords, Assembly.machineCode]
  rw [assembleProgram_eq, assembleProgram_eq, hany, hfailure, hcode]

/-- A program and its text without names in operands come to the same: symbols are only names for
addresses. -/
theorem spelledAlike (text : String) : SpelledAlike text := by
  have hlines := forall₂_programLines_spelledOut text
  obtain ⟨hagrees, hwords, hdiagnostics⟩ :=
    assemble_of_spelled hlines (bounded_assemble text).symbols fun _ => rfl
  refine ⟨hlines, fun hclean record hmem => ?_, ?_, hwords, hdiagnostics, hagrees.start,
    hagrees.location, hagrees.literals, fun symbol hmem => ?_⟩
  · have hclean' : (assemble (spelledOut text)).hasErrors = false := by
      rwa [Assembly.hasErrors, hdiagnostics]
    exact nameless_of_spelled hlines hagrees hclean' hmem
  · exact assembleProgram_congr hwords hdiagnostics
  · rw [← hagrees.addressOf?, SymbolTable.addressOf?,
      SymbolTable.find?_name_of_mem (nodup_names_assemble _) hmem, Option.bind_some]

example : spelledOut " START 10\n MOVER AREG, X ,\r\nX DC 5\n END" =
    " START 10\n MOVER AREG, 11 ,\r\nX DC 5\n END" := by
  decide +kernel

end Assembler
