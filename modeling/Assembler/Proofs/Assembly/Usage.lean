import Assembler.Proofs.Assembly.Residue
import Assembler.Proofs.Assembly.Resolution

/-!
# The literals that lines use

A literal is used where it stands alone on its line, and where it is the memory operand of an
instruction.  These two, and the statements that place literals, are all that the literal table
ever sees of a program.  So as long as nothing fails, the table can be read off the lines: it has
the literals in the order in which they are used first, and those that wait are the ones that have
been used first since the last LTORG.

## Main definitions

* `lineUse?` : the literal that a line uses.
* `firstUses` : the literals that lines use, in the order of their first uses.
* `freshUses` : those that were used first behind the last LTORG.

## Main results

* `Scan.literals_step` : what a line does to the literal table.
* `Scan.literals_run` : the literal table after lines that do not fail.
-/

namespace Assembler

namespace SourceLine

/-- The literal that a source line uses, if it uses one. -/
def literalUse? : SourceLine → Option String
  | literal text => some text
  | statement content =>
    match content.mnemonic with
    | .operation _ => content.operands.memory?.filter isLiteralOperand
    | _ => none

/-- Whether a source line places the literals that wait. -/
def places : SourceLine → Bool
  | literal _ => false
  | statement content => content.mnemonic.placing?.isSome

end SourceLine

/-- A literal that is used waits behind the others, if it is new. -/
private theorem LiteralTable.waitingTexts_intern (table : LiteralTable) (text : String) :
    (table.intern text).2.waitingTexts =
      table.waitingTexts ++ [text].filter (· ∉ table.texts) := by
  rw [intern]
  dsimp only
  split_ifs with hmem
  · rw [List.filter_cons_of_neg (by simpa using hmem), List.filter_nil, List.append_nil]
  · rw [List.filter_cons_of_pos (by simpa using hmem), List.filter_nil, waitingTexts,
      List.filter_append, List.map_append]
    rfl

/-! ### One line -/

namespace Context

/-- The literal table after a source line that does not fail. -/
def literalsAfter (context : Context) : Except Fault SourceLine → LiteralTable
  | .error _ => context.literals
  | .ok source =>
    if source.places then context.literals.placeRest context.location
    else source.literalUse?.elim context.literals fun text => (context.literals.intern text).2

private theorem literalsAfter_of_placing {context : Context} {statement : Statement}
    {place : Context → Except Fault Context} (h : statement.mnemonic.placing? = some place) :
    context.literalsAfter (.ok (.statement statement)) =
      context.literals.placeRest context.location :=
  if_pos (by rw [SourceLine.places, h]; rfl)

private theorem literalsAfter_of_declaration {context : Context} {statement : Statement}
    {word : Declaration} (h : statement.mnemonic = .declaration word) :
    context.literalsAfter (.ok (.statement statement)) = context.literals := by
  simp [literalsAfter, SourceLine.places, SourceLine.literalUse?, h, Mnemonic.placing?]

private theorem literalsAfter_of_directive {context : Context} {statement : Statement}
    {word : Directive} (h : statement.mnemonic = .directive word)
    (hplacing : (Mnemonic.directive word).placing? = none) :
    context.literalsAfter (.ok (.statement statement)) = context.literals := by
  simp [literalsAfter, SourceLine.places, SourceLine.literalUse?, h, hplacing]

/-- Only an operand that is taken for a literal is entered in the literal table. -/
theorem Referred.literals_eq {context after : Context} {operand? : Option String}
    {reference : Reference} (h : context.Referred operand? reference after) :
    after.literals = (operand?.filter isLiteralOperand).elim context.literals fun text =>
      (context.literals.intern text).2 := by
  cases h with
  | absent => rfl
  | literal hliteral => rw [Option.filter_some_pos hliteral, Option.elim_some]
  | @constant operand value hvalue =>
    have hnone : isLiteralOperand operand = false := by
      by_contra hliteral
      rw [readNumeral?_of_isLiteralOperand (by simpa using hliteral)] at hvalue
      cases hvalue
    rw [Option.filter_some_neg (by simp [hnone]), Option.elim_none]
  | symbol hname =>
    rw [Option.filter_some_neg (by simp [isLiteralOperand_of_isName hname]), Option.elim_none]

theorem Performed.literals_eq {bound after : Context} {statement : Statement} {record : Record}
    (h : bound.Performed statement after (.ok record)) (horderly : bound.literals.Orderly) :
    after.literals = bound.literalsAfter (.ok (.statement statement)) := by
  cases h with
  | instruction hmnemonic _ _ hrefer =>
    rw [hrefer.literals_eq]
    simp [literalsAfter, SourceLine.places, SourceLine.literalUse?, hmnemonic, Mnemonic.placing?]
  | constant hmnemonic => rw [literalsAfter_of_declaration hmnemonic]
  | storage hmnemonic => rw [literalsAfter_of_declaration hmnemonic]
  | origin hmnemonic => rw [literalsAfter_of_directive hmnemonic rfl]
  | placed hmnemonic hplacing hplaced =>
    rw [(eq_poolPlaced_of_placing horderly hplacing hplaced).1]
    rw [← hmnemonic] at hplacing
    rw [literalsAfter_of_placing hplacing]
    rfl

/-- Nothing that places literals uses one. -/
private theorem literalUse?_of_places {source : SourceLine} (h : source.places = true) :
    source.literalUse? = none := by
  cases source with
  | literal text => cases h
  | statement content =>
    rw [SourceLine.literalUse?]
    split
    · rename_i hmnemonic
      rw [SourceLine.places, hmnemonic] at h
      cases h
    · rfl

/-- The literal that a source line uses comes to stand behind the others, if it is new. -/
theorem texts_literalsAfter (context : Context) (source : Except Fault SourceLine) :
    (context.literalsAfter source).texts = context.literals.texts ++
      (source.toOption.bind SourceLine.literalUse?).toList.filter
        (· ∉ context.literals.texts) := by
  cases source with
  | error fault => exact (List.append_nil _).symm
  | ok source =>
    rw [literalsAfter, Except.toOption, Option.bind_some]
    split_ifs with hplaces
    · rw [LiteralTable.texts_placeRest, literalUse?_of_places hplaces]
      exact (List.append_nil _).symm
    · cases source.literalUse? with
      | none => exact (List.append_nil _).symm
      | some text =>
        rw [Option.elim_some, LiteralTable.texts_intern, Option.toList_some]
        split_ifs with hmem <;> simp [hmem]

/-- A source line that places no literals leaves those that wait, and the literal that it uses waits
behind them if it is new. -/
private theorem waitingTexts_literalsAfter {context : Context} (h : context.literals.Orderly)
    (source : Except Fault SourceLine) :
    (context.literalsAfter source).waitingTexts =
      if source.toOption.any SourceLine.places then []
      else context.literals.waitingTexts ++
        (source.toOption.bind SourceLine.literalUse?).toList.filter
          (· ∉ context.literals.texts) := by
  cases source with
  | error fault => exact (List.append_nil _).symm
  | ok source =>
    rw [literalsAfter, Except.toOption, Option.bind_some, Option.any_some]
    split_ifs with hplaces
    · have hplaced := h.placeRest context.location
      rw [← List.length_eq_zero_iff, hplaced.length_waitingTexts,
        LiteralTable.openSize_placeRest h.mark_le]
    · cases source.literalUse? with
      | none => exact (List.append_nil _).symm
      | some text => exact LiteralTable.waitingTexts_intern _ _

/-- What a source line that does not fail does to the literal table. -/
theorem Executed.literals_eq {context : Context} {source : Except Fault SourceLine}
    {effect : Effect} (h : context.Executed source effect) (horderly : context.literals.Orderly)
    {record? : Option Record} (hresult : effect.result = .ok record?) :
    effect.context.literals = context.literalsAfter source := by
  cases h with
  | unread => cases hresult
  | literal => rfl
  | @performed statement after result _ hperformed =>
    cases result with
    | error fault => cases hresult
    | ok record =>
      rw [hperformed.literals_eq (orderly_bindLabel horderly _ _), literalsAfter, literalsAfter,
        bindLabel_literals, bindLabel_location]
  | incomplete => cases hresult
  | valueless => cases hresult
  | equated hmnemonic => rw [literalsAfter_of_directive hmnemonic rfl]; rfl

end Context

/-- The literal that a line uses. -/
def lineUse? (line : String) : Option String :=
  (SourceLine.ofText line).toOption.bind SourceLine.literalUse?

/-- Whether a line holds a statement with a directive. -/
def isDirectiveLine (word : Directive) (line : String) : Bool :=
  match SourceLine.ofText line with
  | .ok (.statement statement) => statement.mnemonic == .directive word
  | _ => false

namespace Scan

variable {scan : Scan} {number : Nat} {line : String} {lines : List String}

/-- What a line that does not fail does to the literal table. -/
theorem literals_step (horderly : scan.context.literals.Orderly) (hphase : scan.phase ≠ .ended)
    (hclean : ¬(scan.step number line).1.Failed) :
    (scan.step number line).2.context.literals =
      scan.context.literalsAfter (SourceLine.ofText line) := by
  have hstepped := scan.stepped_step number line
  generalize scan.step number line = outcome at hclean hstepped ⊢
  cases hstepped with
  | idle hidle =>
    have hblank := hidle.resolve_right hphase
    rw [SourceLine.ofText_of_isBlankText hblank]
    rfl
  | opened _ _ hread =>
    rw [hread, Context.literalsAfter_of_directive rfl rfl, openWith]
    dsimp only
    rw [Context.bindLabel_literals]
  | proceeded =>
    dsimp only [proceed] at hclean ⊢
    cases hresult : (scan.context.execute (SourceLine.ofText line)).result with
    | error fault => exact absurd (Trace.failed_ofLine_iff.mpr ⟨fault, hresult⟩) hclean
    | ok record? => exact (Context.executed_execute _ _).literals_eq horderly hresult

/-- A line that fails keeps the literal table. -/
theorem literals_step_of_failed (horderly : scan.context.literals.Orderly)
    (hfailed : (scan.step number line).1.Failed) :
    (scan.step number line).2.context.literals = scan.context.literals := by
  have hstepped := scan.stepped_step number line
  generalize scan.step number line = outcome at hfailed hstepped ⊢
  cases hstepped with
  | idle => rfl
  | opened =>
    obtain ⟨fault, hfault⟩ := Trace.failed_ofLine_iff.mp hfailed
    cases hfault
  | proceeded =>
    obtain ⟨fault, hfault⟩ := Trace.failed_ofLine_iff.mp hfailed
    exact (Context.residue_execute horderly hfault).literals

end Scan

/-! ### Any lines -/

/-- The literals that lines use, in the order of their first uses. -/
def firstUses (lines : List String) : List String :=
  (lines.filterMap lineUse?).eraseDups

/-- The lines up to the last LTORG among them. -/
def throughLtorg (lines : List String) : List String :=
  lines.rdropWhile fun line => !isDirectiveLine .ltorg line

/-- The literals that lines use and that none of them up to the last LTORG does, in the order of
their first uses. -/
def freshUses (lines : List String) : List String :=
  (firstUses lines).filter (· ∉ firstUses (throughLtorg lines))

private theorem mem_firstUses {lines : List String} {text : String} :
    text ∈ firstUses lines ↔ ∃ line ∈ lines, lineUse? line = some text := by
  rw [firstUses, List.mem_eraseDups, List.mem_filterMap]

/-- One more line adds the literal that it uses, unless an earlier one uses it. -/
theorem firstUses_concat (lines : List String) (line : String) :
    firstUses (lines ++ [line]) =
      firstUses lines ++ (lineUse? line).toList.filter (· ∉ firstUses lines) := by
  rw [firstUses, List.filterMap_append, firstUses]
  cases huse : lineUse? line with
  | none => simp [huse]
  | some text =>
    rw [List.filterMap_cons, huse, List.filterMap_nil, Keyed.eraseDups_concat, Keyed.addKey,
      Option.toList_some]
    split_ifs with hused
    · rw [List.filter_cons_of_neg (by simpa using hused), List.filter_nil, List.append_nil]
    · rw [List.filter_cons_of_pos (by simpa using hused), List.filter_nil]

/-- Nothing is fresh right behind an LTORG. -/
private theorem freshUses_concat_of_ltorg (lines : List String) {line : String}
    (h : isDirectiveLine .ltorg line = true) : freshUses (lines ++ [line]) = [] := by
  rw [freshUses, throughLtorg, List.rdropWhile_concat, h]
  simp

private theorem freshUses_concat (lines : List String) {line : String}
    (h : isDirectiveLine .ltorg line = false) :
    freshUses (lines ++ [line]) =
      freshUses lines ++ (lineUse? line).toList.filter (· ∉ firstUses lines) := by
  have hthrough : throughLtorg (lines ++ [line]) = throughLtorg lines := by
    rw [throughLtorg, List.rdropWhile_concat, h]
    rfl
  rw [freshUses, hthrough, firstUses_concat, List.filter_append, List.filter_filter, freshUses]
  congr 1
  apply List.filter_congr
  intro text _
  -- what no line uses, no line up to the last LTORG uses
  have hsub : text ∈ firstUses (throughLtorg lines) → text ∈ firstUses lines := by
    simp only [mem_firstUses]
    rintro ⟨other, hother, huse⟩
    exact ⟨other, (List.rdropWhile_prefix _ _).subset hother, huse⟩
  by_cases hmem : text ∈ firstUses lines
  · simp [hmem]
  · simp [hmem, mt hsub hmem]

namespace Scan

variable {scan : Scan} {number : Nat} {line : String} {lines : List String}

/-- An END ends its program. -/
theorem phase_step_of_finish (hphase : scan.phase ≠ .ended)
    (hfinish : isDirectiveLine .finish line = true) :
    (scan.step number line).2.phase = .ended := by
  have hstepped := scan.stepped_step number line
  generalize scan.step number line = outcome at hstepped ⊢
  unfold isDirectiveLine at hfinish
  split at hfinish
  · rename_i statement hread
    cases hstepped with
    | idle hidle =>
      rw [SourceLine.ofText_of_isBlankText (hidle.resolve_right hphase)] at hread
      cases hread
    | opened _ _ hstart =>
      rw [hread] at hstart
      cases hstart
      cases hfinish
    | proceeded =>
      rw [hread]
      exact if_pos hfinish
  · cases hfinish

/-- Where no END is read, only LTORG places literals. -/
private theorem any_places_eq (hfinish : isDirectiveLine .finish line = false) :
    (SourceLine.ofText line).toOption.any SourceLine.places = isDirectiveLine .ltorg line := by
  rw [isDirectiveLine] at hfinish ⊢
  generalize SourceLine.ofText line = source at hfinish ⊢
  rcases source with fault | (text | ⟨label, mnemonic, operands⟩)
  · rfl
  · rfl
  · cases mnemonic with
    | directive word => cases word <;> first | rfl | cases hfinish
    | declaration word => rfl
    | operation opcode => rfl

/-- As long as lines do not fail and do not end the program, the literal table can be read off
them. -/
theorem literals_run (hclean : ¬(run 1 lines ⟨.opening, {}⟩).1.Failed)
    (hphase : (run 1 lines ⟨.opening, {}⟩).2.phase ≠ .ended) :
    (run 1 lines ⟨.opening, {}⟩).2.context.literals.texts = firstUses lines ∧
      (run 1 lines ⟨.opening, {}⟩).2.context.literals.waitingTexts = freshUses lines := by
  induction lines using List.reverseRecOn with
  | nil => exact ⟨rfl, rfl⟩
  | append_singleton lines line ih =>
    rw [run_append] at hclean hphase ⊢
    rw [Trace.failed_append, not_or] at hclean
    have horderly : (run 1 lines ⟨.opening, {}⟩).2.context.literals.Orderly :=
      orderly_run LiteralTable.orderly_empty 1 lines
    generalize hscan : (run 1 lines ⟨.opening, {}⟩).2 = scan at hclean hphase horderly ih ⊢
    generalize 1 + lines.length = number at hclean hphase ⊢
    rw [run_cons, Trace.failed_append, not_or] at hclean
    have hopen : scan.phase ≠ .ended := by
      intro hended
      rw [run_of_ended hended] at hphase
      exact hphase hended
    obtain ⟨htexts, hwaiting⟩ := ih hclean.1 hopen
    have hfinish : isDirectiveLine .finish line = false := by
      by_contra hfinish
      exact hphase (phase_step_of_finish hopen (by simpa using hfinish))
    have hliterals : (run number [line] scan).2.context.literals =
        scan.context.literalsAfter (SourceLine.ofText line) :=
      literals_step horderly hopen hclean.2.1
    rw [hliterals, Context.texts_literalsAfter, Context.waitingTexts_literalsAfter horderly,
      any_places_eq hfinish, htexts, hwaiting, firstUses_concat]
    refine ⟨rfl, ?_⟩
    split_ifs with hltorg
    · rw [freshUses_concat_of_ltorg lines hltorg]
    · rw [freshUses_concat lines (by simpa using hltorg)]
      rfl

end Scan

end Assembler
