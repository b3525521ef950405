import Assembler.Proofs.Assembly.Usage

/-!
# The end of a program

Ending a program places the open pool, moves the counter, places whatever still waits, and moves the
counter again.  After the first two steps nothing waits, so the last two do nothing, and the end of
a program is an LTORG.  It places all literals of the open pool or none of them, and no literal
outside the open pool waits; so in the end every literal has an address, or the last thing that the
reading reports is that the open pool did not fit.

A pool that does not fit where an LTORG stands stays open.  It goes where the next placement with
room for it puts it, in the order in which its literals were first used.

## Main definitions

* `Context.ClosesLikePool` : ending a program in a context is placing its open pool.
* `ClosedOn`, `Unclosed` : where a program is closed, and programs whose last pool did not fit.
* `Scan.Flush`, `Scan.KeepsPool` : what places the open pool, and pools that wait for it.

## Main results

* `Context.execute_placing` : what LTORG and END do.
* `Scan.exists_end_of_run` : a program that has ended has a line with its END.
* `closing_all_or_nothing` : the end of a program resolves all literals or leaves everything as it
  was.
-/

namespace Assembler

namespace Context

/-! ### Closing a context -/

/-- Ending a program in a context is placing its open pool. -/
structure ClosesLikePool (context : Context) : Prop where
  /-- Step by step the end of a program leaves what LTORG leaves. -/
  stepwise : context.closeStepwise = context.placePoolStepwise
  /-- Taking the steps at once is taking them one by one. -/
  at_once : context.close =
    match context.closeStepwise with
    | (closed, none) => .ok closed
    | (_, some fault) => .error fault
  /-- Once the open pool is placed there is nothing left to place, and no step can fail. -/
  later_steps : ∀ words literals,
    context.literals.placeOpen context.location = .ok (words, literals) →
      Location.advance context.location words = .ok (context.location + words) ∧
        literals.placeAll (context.location + words) = .ok (0, literals) ∧
        Location.advance (context.location + words) 0 = .ok (context.location + words)
  fails_iff : context.closeStepwise.2.isSome ↔
    maxAddress < context.location + context.literals.openSize
  unchanged : context.closeStepwise.2.isSome → context.closeStepwise.1 = context
  /-- An END leaves the context that an LTORG with the same label leaves. -/
  statements : ∀ label operands,
    (context.execute (.ok (.statement ⟨label, .directive .finish, operands⟩))).context =
      (context.execute (.ok (.statement ⟨label, .directive .ltorg, operands⟩))).context

variable {context : Context}

/-- What LTORG and END do. -/
theorem execute_placing (h : context.literals.Orderly) {word : Directive}
    {place : Context → Except Fault Context}
    (hplacing : (Mnemonic.directive word).placing? = some place) (label : Option String)
    (operands : Operands) :
    context.execute (.ok (.statement ⟨label, .directive word, operands⟩)) =
      if context.location + context.literals.openSize ≤ maxAddress then
        ⟨(context.bindLabel label context.location).2.poolPlaced,
          (context.bindLabel label context.location).1, .ok (some (.directive word none))⟩
      else
        ⟨(context.bindLabel label context.location).2,
          (context.bindLabel label context.location).1,
          .error (.locationOverflow context.location context.literals.openSize)⟩ := by
  have hbound := orderly_bindLabel h label context.location
  have hplace := (placing_eq hbound hplacing).trans (placePool_eq hbound)
  rw [bindLabel_location, bindLabel_literals] at hplace
  have hexecute : context.execute (.ok (.statement ⟨label, .directive word, operands⟩)) =
      context.afterLabel label (placing · word place) := by
    unfold Mnemonic.placing? at hplacing
    split at hplacing
    · rename_i hword
      cases hword
      cases hplacing
      rfl
    · rename_i hword
      cases hword
      cases hplacing
      rfl
    · cases hplacing
  rw [hexecute, afterLabel]
  dsimp only [placing]
  rw [hplace]
  split_ifs <;> rfl

private theorem closesLikePool (h : context.literals.Orderly) : context.ClosesLikePool where
  stepwise := closeStepwise_eq h
  at_once := by
    rw [close_eq_placePool h, placePool_eq h, closeStepwise_eq h, placePoolStepwise_eq h]
    split_ifs <;> rfl
  later_steps words literals hplaced := by
    rw [LiteralTable.placeOpen, h.placeAfter_eq (Nat.le_refl _)] at hplaced
    split_ifs at hplaced with hroom
    cases hplaced
    have hopen := LiteralTable.openSize_placeRest h.mark_le context.location
    have hplaceRest := h.placeRest context.location
    refine ⟨Location.advance_of_le hroom, ?_, Location.advance_of_le hroom⟩
    rw [LiteralTable.placeAll, hplaceRest.placeAfter_eq (Nat.zero_le _), hopen, Nat.add_zero,
      if_pos hroom, LiteralTable.placeRest_of_openSize_eq_zero hplaceRest.mark_le hopen]
  fails_iff := by
    rw [closeStepwise_eq h, placePoolStepwise_eq h]
    split_ifs with hroom
    · simpa using hroom
    · simpa using Nat.not_le.mp hroom
  unchanged hfails := by
    rw [closeStepwise_eq h, placePoolStepwise_eq h] at hfails ⊢
    split_ifs at hfails ⊢ with hroom
    · cases hfails
    · rfl
  statements label operands := by
    rw [execute_placing h rfl, execute_placing h rfl]
    split_ifs <;> rfl

end Context

/-! ### Where a program is closed -/

/-- The trace of a line that fails ends in its error. -/
private theorem Trace.getLast?_ofLine (number address : Nat) (warnings : List Fault)
    (fault : Fault) :
    (ofLine number address warnings (.error fault)).diagnostics.getLast? =
      some ⟨number, .error, fault⟩ :=
  List.getLast?_concat

namespace Scan

variable {scan : Scan} {number : Nat} {line : String} {lines : List String}

/-- A program that has ended has a line with its END, and nothing comes of the lines behind it. -/
theorem exists_end_of_run (hstart : scan.phase ≠ .ended)
    (hended : (run number lines scan).2.phase = .ended) :
    ∃ before line after, lines = before ++ line :: after ∧
      (run number before scan).2.phase ≠ .ended ∧
      ((run number before scan).2.step (number + before.length) line).2.phase = .ended ∧
      run number lines scan =
        ((run number before scan).1.append
          ((run number before scan).2.step (number + before.length) line).1,
          ((run number before scan).2.step (number + before.length) line).2) := by
  induction lines generalizing number scan with
  | nil => exact absurd hended hstart
  | cons line rest ih =>
    by_cases hline : (scan.step number line).2.phase = .ended
    · refine ⟨[], line, rest, rfl, hstart, hline, ?_⟩
      rw [run_cons, run_of_ended hline]
      simp [Trace.append, run]
    · obtain ⟨before, last, after, hlines, hbefore, hlast, hrun⟩ := ih hline hended
      have hlength : number + (line :: before).length = number + 1 + before.length := by
        rw [List.length_cons]
        omega
      refine ⟨line :: before, last, after, by rw [hlines]; rfl, hbefore, ?_, ?_⟩
      · rw [hlength]
        exact hlast
      · rw [hlength, run_cons, run_cons, hrun, Trace.append_assoc]

/-- A line that is not an opening START is executed, unless nothing is read any more. -/
theorem step_of_statement (number : Nat) (hphase : scan.phase ≠ .ended) {statement : Statement}
    (hread : SourceLine.ofText line = .ok (.statement statement))
    (hmnemonic : statement.mnemonic ≠ .directive .start) :
    ∃ warnings, scan.step number line =
      proceed number warnings (.ok (.statement statement)) scan.context := by
  have hstepped := scan.stepped_step number line
  generalize scan.step number line = outcome at hstepped
  cases hstepped with
  | idle hidle =>
    rcases hidle with hblank | hended
    · rw [SourceLine.ofText_of_isBlankText hblank] at hread
      cases hread
    · exact absurd hended hphase
  | opened _ _ hstart =>
    rw [hread] at hstart
    cases hstart
    exact absurd rfl hmnemonic
  | proceeded =>
    rw [hread]
    exact ⟨_, rfl⟩

/-- A line that ends a program holds its END. -/
private theorem exists_read_of_ended (hphase : scan.phase ≠ .ended)
    (hended : (scan.step number line).2.phase = .ended) :
    ∃ label operands,
      SourceLine.ofText line = .ok (.statement ⟨label, .directive .finish, operands⟩) := by
  have hstepped := scan.stepped_step number line
  generalize scan.step number line = outcome at hstepped hended
  cases hstepped with
  | idle => exact absurd hended hphase
  | opened => cases hended
  | proceeded =>
    obtain ⟨⟨label, mnemonic, operands⟩, hread, rfl⟩ := exists_finish_of_phase_eq_ended hended
    exact ⟨label, operands, hread⟩

private theorem ne_start_of_placing {mnemonic : Mnemonic} {place : Context → Except Fault Context}
    (hplacing : mnemonic.placing? = some place) : mnemonic ≠ .directive .start := by
  rintro rfl
  cases hplacing

/-- An LTORG or an END fails exactly when there is no room for the open pool. -/
theorem failed_step_placing_iff (number : Nat) (h : scan.context.literals.Orderly)
    (hphase : scan.phase ≠ .ended) {label : Option String} {word : Directive}
    {operands : Operands} {place : Context → Except Fault Context}
    (hread : SourceLine.ofText line = .ok (.statement ⟨label, .directive word, operands⟩))
    (hplacing : (Mnemonic.directive word).placing? = some place) :
    (scan.step number line).1.Failed ↔
      maxAddress < scan.context.location + scan.context.literals.openSize := by
  obtain ⟨warnings, hstep⟩ := step_of_statement number hphase hread (ne_start_of_placing hplacing)
  rw [hstep, proceed, Context.execute_placing h hplacing, Trace.failed_ofLine_iff, ← Nat.not_le]
  split_ifs with hroom
  · simp [hroom]
  · simp [hroom]

/-- What a line with an LTORG or an END does to the literals and the location counter, and what it
reports if the open pool does not fit. -/
theorem step_placing (number : Nat) (h : scan.context.literals.Orderly)
    (hphase : scan.phase ≠ .ended)
    {label : Option String} {word : Directive} {operands : Operands}
    {place : Context → Except Fault Context}
    (hread : SourceLine.ofText line = .ok (.statement ⟨label, .directive word, operands⟩))
    (hplacing : (Mnemonic.directive word).placing? = some place) :
    if scan.context.location + scan.context.literals.openSize ≤ maxAddress then
      (scan.step number line).2.context.literals =
        scan.context.literals.placeRest scan.context.location
    else
      (scan.step number line).2.context.literals = scan.context.literals ∧
        (scan.step number line).2.context.location = scan.context.location ∧
        (scan.step number line).1.diagnostics.getLast? =
          some ⟨number, .error,
            .locationOverflow scan.context.location scan.context.literals.openSize⟩ := by
  obtain ⟨warnings, hstep⟩ := step_of_statement number hphase hread (ne_start_of_placing hplacing)
  by_cases hroom : scan.context.location + scan.context.literals.openSize ≤ maxAddress
  · rw [if_pos hroom, hstep, proceed, Context.execute_placing h hplacing, if_pos hroom]
    dsimp only
    rw [Context.poolPlaced, Context.bindLabel_literals, Context.bindLabel_location]
  · rw [if_neg hroom, hstep, proceed, Context.execute_placing h hplacing, if_neg hroom]
    refine ⟨Context.bindLabel_literals _ _ _, Context.bindLabel_location _ _ _, ?_⟩
    exact Trace.getLast?_ofLine number scan.context.location _ _

end Scan

/-- The line on which a program is closed: the one with its END, or the last one if it has none. -/
def ClosedOn (text : String) (line : Nat) : Prop :=
  if (programScan text).phase = .ended then
    ∃ before content after statement, programLines text = before ++ content :: after ∧
      line = before.length + 1 ∧ (Scan.run 1 before ⟨.opening, {}⟩).2.phase ≠ .ended ∧
      SourceLine.ofText content = .ok (.statement statement) ∧
      statement.mnemonic = .directive .finish
  else line = (programLines text).length

/-- The last pool of a program did not fit, which is the last thing that is reported of the reading,
and the literals of that pool are those without an address. -/
structure Unclosed (text : String) : Prop where
  reported : ∃ line, ClosedOn text line ∧
    (scanText text {}).1.diagnostics.getLast? =
      some ⟨line, .error, .locationOverflow (assemble text).context.location
        (assemble text).context.literals.openSize⟩
  full : maxAddress <
    (assemble text).context.location + (assemble text).context.literals.openSize
  waiting : ∀ index literal, (assemble text).context.literals.get? index = some literal →
    (literal.address = none ↔ (assemble text).context.literals.mark < index)

/-- A literal waits exactly when it belongs to the open pool. -/
theorem LiteralTable.Orderly.address_eq_none_iff {table : LiteralTable} (h : table.Orderly)
    {index : Nat} {literal : Literal} (hget : table.get? index = some literal) :
    literal.address = none ↔ table.mark < index := by
  rw [← Option.not_isSome_iff_eq_none, h.isSome_address_iff hget, Nat.not_le]

/-- Where no literal waits in the open pool, none waits at all. -/
theorem LiteralTable.Orderly.isSome_address_of_openSize {table : LiteralTable}
    (h : table.Orderly) (hopen : table.openSize = 0) :
    ∀ literal ∈ table.literals, literal.address.isSome := by
  intro literal hmem
  refine h.placed literal ?_
  rwa [List.take_of_length_le (Nat.sub_eq_zero_iff_le.mp hopen)]

/-- A program that has an END leaves no literal waiting, or its last pool did not fit there. -/
private theorem resolved_or_unclosed_of_ended {text : String}
    (hphase : (programScan text).phase = .ended) :
    (∀ literal ∈ (assemble text).context.literals.literals, literal.address.isSome) ∨
      Unclosed text := by
  have hfinal := orderly_assemble text
  have hfinish := Scan.finish_eq (orderly_programScan text) (programLines text).length
  rw [if_pos hphase] at hfinish
  have hdiagnostics := scanText_diagnostics text
  rw [hfinish, List.append_nil] at hdiagnostics
  have hcontext : (assemble text).context = (programScan text).context := by
    rw [assemble_context, hfinish]
  have hbegun : (Scan.mk .opening {}).phase ≠ .ended := by simp
  obtain ⟨before, content, after, hlines, hbefore, hended, hrun⟩ :=
    Scan.exists_end_of_run hbegun hphase
  obtain ⟨label, operands, hread⟩ := Scan.exists_read_of_ended hbefore hended
  have horderly : (Scan.run 1 before ⟨.opening, {}⟩).2.context.literals.Orderly :=
    Scan.orderly_run LiteralTable.orderly_empty 1 before
  have hplaced := Scan.step_placing (1 + before.length) horderly hbefore hread rfl
  have hscan : (programScan text).context = _ := congrArg (·.2.context) hrun
  rw [hscan] at hcontext
  split_ifs at hplaced with hroom
  · refine .inl (hfinal.isSome_address_of_openSize ?_)
    rw [hcontext, hplaced]
    exact LiteralTable.openSize_placeRest horderly.mark_le _
  · obtain ⟨hliterals, hlocation, hlast⟩ := hplaced
    refine .inr ⟨⟨before.length + 1, ?_, ?_⟩, ?_,
      fun index literal => hfinal.address_eq_none_iff⟩
    · rw [ClosedOn, if_pos hphase]
      exact ⟨before, content, after, _, hlines, rfl, hbefore, hread, rfl⟩
    · rw [hdiagnostics, hrun, hcontext, hliterals, hlocation, Nat.add_comm before.length]
      dsimp only [Trace.append]
      rw [List.getLast?_append, hlast]
      rfl
    · rw [hcontext, hliterals, hlocation]
      exact Nat.not_le.mp hroom

/-- In the end every literal has an address, or the last pool did not fit. -/
theorem resolved_or_unclosed (text : String) :
    (∀ literal ∈ (assemble text).context.literals.literals, literal.address.isSome) ∨
      Unclosed text := by
  by_cases hphase : (programScan text).phase = .ended
  · exact resolved_or_unclosed_of_ended hphase
  have horderly := orderly_programScan text
  have hfinal := orderly_assemble text
  have hdiagnostics := scanText_diagnostics text
  have hcontext := assemble_context text
  rw [Scan.finish_eq horderly, if_neg hphase] at hdiagnostics hcontext
  split_ifs at hdiagnostics hcontext with hroom
  · refine .inl (hfinal.isSome_address_of_openSize ?_)
    rw [hcontext]
    exact LiteralTable.openSize_placeRest horderly.mark_le _
  · refine .inr ⟨⟨(programLines text).length, ?_, ?_⟩, ?_,
      fun index literal => hfinal.address_eq_none_iff⟩
    · rw [ClosedOn, if_neg hphase]
    · rw [hdiagnostics, hcontext]
      simp
    · rw [hcontext]
      exact Nat.not_le.mp hroom

/-! ### Literals in the encoding -/

namespace Context

variable {context : Context} {fault : Fault}

private theorem kind_of_noted {made : Except FieldOverflow Word}
    (h : (made.map some).mapError Fault.overflow = .error fault) :
    fault.kind = .fieldOverflow := by
  cases made with
  | ok word => cases h
  | error overflow =>
    cases h
    rfl

/-- A record that has no word overflows a field, or it is that of an instruction whose operand
stands for nothing. -/
private theorem encode_eq_error {record : Record} (h : context.encode record = .error fault) :
    fault.kind = .fieldOverflow ∨ ∃ opcode register reference,
      record = .instruction opcode register reference ∧
        context.resolve reference = .error fault := by
  cases record with
  | directive word operand => cases h
  | declaration word value =>
    cases word with
    | storage => cases h
    | constant => exact .inl (kind_of_noted h)
  | instruction opcode register reference =>
    rw [encode] at h
    split at h
    · rename_i hresolve
      cases h
      exact .inr ⟨opcode, register, reference, rfl, hresolve⟩
    · exact .inl (kind_of_noted h)

private theorem kind_of_resolve_symbol {index : Nat}
    (h : context.resolve (.symbol index) = .error fault) : fault.kind = .undefinedSymbol := by
  rw [resolve] at h
  split at h
  · cases h
    rfl
  · split at h
    · cases h
      rfl
    · cases h

end Context

/-- Where every literal has an address, the encoding misses none. -/
private theorem kind_ne_unresolvedLiteral {text : String}
    (h : ∀ literal ∈ (assemble text).context.literals.literals, literal.address.isSome)
    {diagnostic : Diagnostic}
    (hmem : diagnostic ∈ ((assemble text).context.image (assemble text).records).diagnostics) :
    diagnostic.fault.kind ≠ .unresolvedLiteral := by
  obtain ⟨record, hrecord, -, hencode⟩ := Context.exists_record_of_mem_diagnostics hmem
  obtain hoverflow | ⟨opcode, register, reference, hcontent, hresolve⟩ :=
    Context.encode_eq_error hencode
  · rw [hoverflow]
    decide
  obtain ⟨-, statement, moved, after, -, -, -, -, hrefer, hgrows⟩ :=
    exists_referred_of_mem_records hrecord hcontent
  generalize statement.operands.memory? = operand? at hrefer
  cases hrefer with
  | absent => cases hresolve
  | constant => cases hresolve
  | symbol =>
    rw [Context.kind_of_resolve_symbol hresolve]
    decide
  | @literal operand hliteral =>
    have hused : operand ∈ (assemble text).context.literals.texts :=
      hgrows.texts.subset (LiteralTable.mem_texts_intern_self _ operand)
    obtain ⟨literal, hfind⟩ :=
      Option.isSome_iff_exists.mp (LiteralTable.find?_isSome_iff.mpr hused)
    obtain ⟨address, haddress⟩ :=
      Option.isSome_iff_exists.mp (h literal (List.mem_of_find?_eq_some hfind))
    rw [(Context.Referred.literal hliteral).resolve_literal hgrows hliteral,
      LiteralTable.addressOf?, hfind, Option.bind_some, haddress] at hresolve
    cases hresolve

/-! ### Pools that wait -/

/-- The open pool of a table is still open in another one, and its literals stand there where they
stood. -/
structure LiteralTable.KeepsOpen (old new : LiteralTable) : Prop where
  mark_eq : new.mark = old.mark
  rows : ∀ index literal, old.get? index = some literal → new.get? index = some literal

theorem LiteralTable.KeepsOpen.refl (table : LiteralTable) : table.KeepsOpen table :=
  ⟨rfl, fun _ _ h => h⟩

theorem LiteralTable.KeepsOpen.trans {first second third : LiteralTable}
    (h : first.KeepsOpen second) (h' : second.KeepsOpen third) : first.KeepsOpen third :=
  ⟨h'.mark_eq.trans h.mark_eq, fun index literal hget => h'.rows index literal (h.rows _ _ hget)⟩

private theorem LiteralTable.keepsOpen_intern (table : LiteralTable) (text : String) :
    table.KeepsOpen (table.intern text).2 := by
  refine ⟨?_, fun _ _ => get?_intern text⟩
  rw [intern]
  dsimp only
  split_ifs <;> rfl

/-- Where nothing is due although there is room, the open pool is empty. -/
theorem Context.openSize_of_due {context : Context} (h : context.literals.Orderly)
    (hroom : context.location + context.literals.openSize ≤ maxAddress)
    (hdue : context.due = []) : context.literals.openSize = 0 := by
  rw [due_eq h, if_pos hroom, List.zipIdx_eq_nil_iff] at hdue
  rw [← h.length_waitingTexts, hdue, List.length_nil]

namespace Scan

variable {scan later : Scan} {number : Nat} {line : String} {after : Context}

/-- A line that places nothing keeps the pool open. -/
theorem keepsOpen_step (h : scan.context.literals.Orderly) (hnone : scan.placements line = []) :
    scan.context.literals.KeepsOpen (scan.step number line).2.context.literals := by
  by_cases hphase : scan.phase = .ended
  · have hstep : scan.step number line = ({}, scan) := by
      rw [step, hphase]
      exact ite_self _
    rw [hstep]
    exact .refl _
  by_cases hfailed : (scan.step number line).1.Failed
  · rw [literals_step_of_failed h hfailed]
    exact .refl _
  rw [literals_step h hphase hfailed]
  have hplacements : scan.context.placements (SourceLine.ofText line) = [] := by
    rw [placements] at hnone
    split at hnone
    · rename_i hended
      exact absurd hended hphase
    · exact hnone
  cases hread : SourceLine.ofText line with
  | error fault => exact .refl _
  | ok source =>
    rw [Context.literalsAfter]
    split_ifs with hplaces
    · -- there is room, and still nothing is placed
      rcases source with text | ⟨label, mnemonic, operands⟩
      · cases hplaces
      obtain ⟨place, hplacing⟩ := Option.isSome_iff_exists.mp hplaces
      rw [hread, Context.placements_eq_due hplacing] at hplacements
      rcases mnemonic with word | word | opcode
      · rw [failed_step_placing_iff number h hphase hread hplacing, Nat.not_lt] at hfailed
        rw [LiteralTable.placeRest_of_openSize_eq_zero h.mark_le
          (Context.openSize_of_due h hfailed hplacements)]
        exact .refl _
      · cases hplacing
      · cases hplacing
    · cases source.literalUse? with
      | none => exact .refl _
      | some text => exact LiteralTable.keepsOpen_intern _ text

/-- The scan goes on without a literal being placed. -/
inductive WaitsUntil (scan : Scan) : Scan → Prop
  | now : WaitsUntil scan scan
  | line {later : Scan} (h : WaitsUntil scan later) (number : Nat) (line : String)
      (hnone : later.placements line = []) : WaitsUntil scan (later.step number line).2
  | program {later : Scan} (h : WaitsUntil scan later) (count : Nat)
      (hnone : later.phase = .ended ∨ later.context.due = []) :
      WaitsUntil scan ⟨.opening, (later.finish count).2⟩

/-- While no literal is placed, the open pool stays open. -/
private theorem WaitsUntil.keepsOpen (h : scan.WaitsUntil later)
    (horderly : scan.context.literals.Orderly) :
    later.context.literals.Orderly ∧
      scan.context.literals.KeepsOpen later.context.literals := by
  induction h with
  | now => exact ⟨horderly, .refl _⟩
  | line _ number line hnone ih =>
    exact ⟨(stepped_step _ number line).orderly ih.1, ih.2.trans (keepsOpen_step ih.1 hnone)⟩
  | @program later _ count hnone ih =>
    rw [finish_eq ih.1]
    split_ifs with hphase hroom
    · exact ih
    · have hopen := Context.openSize_of_due ih.1 hroom (hnone.resolve_left hphase)
      rwa [Context.poolPlaced_of_openSize_eq_zero ih.1 hopen]
    · exact ih

/-- What places the open pool if there is room for it: LTORG, END, and the end of a program without
an END. -/
inductive Flush (scan : Scan) : Context → Prop
  | statement (number : Nat) {line : String} {label : Option String} {word : Directive}
      {operands : Operands} {place : Context → Except Fault Context}
      (hphase : scan.phase ≠ .ended)
      (hread : SourceLine.ofText line = .ok (.statement ⟨label, .directive word, operands⟩))
      (hplacing : (Mnemonic.directive word).placing? = some place) :
      Flush scan (scan.step number line).2.context
  | finish (count : Nat) (hphase : scan.phase ≠ .ended) : Flush scan (scan.finish count).2

theorem Flush.literals_eq (h : scan.Flush after) (horderly : scan.context.literals.Orderly)
    (hroom : scan.context.location + scan.context.literals.openSize ≤ maxAddress) :
    after.literals = scan.context.literals.placeRest scan.context.location := by
  cases h with
  | statement number hphase hread hplacing =>
    have hplaced := step_placing number horderly hphase hread hplacing
    rwa [if_pos hroom] at hplaced
  | finish count hphase =>
    rw [finish_eq horderly, if_neg hphase, if_pos hroom]
    rfl

/-- A pool that does not fit where an LTORG stands is not lost. -/
structure KeepsPool (scan : Scan) (number : Nat) (line : String) : Prop where
  failed_iff : (scan.step number line).1.Failed ↔
    maxAddress < scan.context.location + scan.context.literals.openSize
  stays_open : (scan.step number line).1.Failed →
    (scan.step number line).2.context.literals = scan.context.literals
  /-- The next placement with room for the pool, whatever else may have joined it, puts its literals
  where the location counter stands by then. -/
  placed : (scan.step number line).1.Failed → ∀ later after,
    (scan.step number line).2.WaitsUntil later → later.Flush after →
      later.context.location + later.context.literals.openSize ≤ maxAddress →
        ∀ index literal, scan.context.literals.mark < index →
          scan.context.literals.get? index = some literal →
            after.literals.get? index = some { literal with
              address := some
                (later.context.location + (index - (scan.context.literals.mark + 1))) }

private theorem keepsPool (h : scan.context.literals.Orderly) (hphase : scan.phase ≠ .ended)
    {label : Option String} {operands : Operands}
    (hread : SourceLine.ofText line = .ok (.statement ⟨label, .directive .ltorg, operands⟩)) :
    scan.KeepsPool number line where
  failed_iff := failed_step_placing_iff number h hphase hread rfl
  stays_open := literals_step_of_failed h
  placed hfailed later after hwaits hflush hroom index literal hindex hget := by
    have hsame := literals_step_of_failed h hfailed
    obtain ⟨horderly, hkeeps⟩ := hwaits.keepsOpen (by rwa [hsame])
    rw [hsame] at hkeeps
    rw [hflush.literals_eq horderly hroom, LiteralTable.get?_placeRest horderly.mark_le,
      hkeeps.mark_eq, if_neg (Nat.not_le.mpr hindex), hkeeps.rows index literal hget]
    rfl

end Scan

/-- What becomes of the literals of a program in the end. -/
structure Settled (text : String) : Prop where
  resolved_or_unclosed :
    (∀ literal ∈ (assemble text).context.literals.literals, literal.address.isSome) ∨
      Unclosed text
  /-- Only a pool that did not fit keeps the encoding from finding a literal. -/
  unresolved :
    (∃ diagnostic ∈ ((assemble text).context.image (assemble text).records).diagnostics,
      diagnostic.fault.kind = .unresolvedLiteral) → Unclosed text

/-- Wherever the reading of programs has led, ending a program is placing its open pool, and a pool
that an LTORG cannot place waits for the next placement with room for it.  So a program leaves no
literal without an address, or its last pool did not fit. -/
theorem closing_all_or_nothing {scan : Scan} (hreached : scan.Reached) :
    scan.context.ClosesLikePool ∧
      (∀ number line label operands, scan.phase ≠ .ended →
        SourceLine.ofText line = .ok (.statement ⟨label, .directive .ltorg, operands⟩) →
          scan.KeepsPool number line) ∧
      ∀ text, Settled text := by
  have horderly := hreached.orderly
  refine ⟨Context.closesLikePool horderly, ?_, fun text => ⟨resolved_or_unclosed text, ?_⟩⟩
  · intro number line label operands hphase hread
    exact Scan.keepsPool horderly hphase hread
  · rintro ⟨diagnostic, hmem, hkind⟩
    refine (resolved_or_unclosed text).resolve_left fun hresolved => ?_
    exact kind_ne_unresolvedLiteral hresolved hmem hkind

/-- The scan of two literals at the top of the address space. -/
def crowdedScan : Scan :=
  (Scan.run 1 [" START 4294967295", " ='1'", " ='2'"] ⟨.opening, {}⟩).2

/-- The pool does not fit at the top.  An ORIGIN makes room, and the next LTORG places it there.  In
a program that ends at the top the literal of an instruction stays without an address. -/
theorem closing_at_the_top :
    crowdedScan.Reached ∧ crowdedScan.context.ClosesLikePool ∧
      (crowdedScan.step 4 " LTORG").1.Failed ∧
      ((Scan.run 4 [" LTORG", " ORIGIN 100", " LTORG"] crowdedScan).2.context.literals.get? 2) =
        some ⟨"='2'", some 101⟩ ∧
      Unclosed " START 4294967294\n MOVER AREG ='1'\n ='2'\n END" := by
  have hreached : crowdedScan.Reached :=
    ((Scan.Reached.fresh.line 1 " START 4294967295").line 2 " ='1'").line 3 " ='2'"
  obtain ⟨hcloses, hkeeps, hsettled⟩ := closing_all_or_nothing hreached
  have hread : SourceLine.ofText " LTORG" = .ok (.statement ⟨none, .directive .ltorg, .none⟩) := by
    decide +kernel
  have hpool := hkeeps 4 " LTORG" none .none (by decide +kernel) hread
  have hfailed : (crowdedScan.step 4 " LTORG").1.Failed :=
    hpool.failed_iff.mpr (by decide +kernel)
  refine ⟨hreached, hcloses, hfailed, ?_, (hsettled _).unresolved ?_⟩
  · refine hpool.placed hfailed _ _ (.line .now 5 " ORIGIN 100" (by decide +kernel))
      (.statement 6 (by decide +kernel) hread rfl) (by decide +kernel) 2 ⟨"='2'", none⟩ ?_ ?_
    · decide +kernel
    · decide +kernel
  · exact ⟨⟨2, .error, .unplacedLiteral "='1'"⟩, by decide +kernel, rfl⟩

end Assembler
