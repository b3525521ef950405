import Assembler.Proofs.Assembly.Frame

/-!
# Every line is accounted for

The lines of a program that are handled are those that are not blank, up to the first END.  Each of
them leaves one record or one error, and a literal that stands alone leaves neither.  All that a
line leaves carries its number, so records and diagnostics come in the order of the lines.

What frames a program is noted once.  A START record can only be the first one and an END record
only the last one.  Without a START there is one warning on the first line that is not blank.
Without an END there is one warning on the last line, and nothing follows it but the error that
there is no room for the literals that wait.

All of this holds for any lines, read in any context, orderly or not.

## Main definitions

* `writtenLines`, `handledLines` : the lines that are not blank, and those that are handled.
* `Scan.handle` : handling numbered lines one after the other.
* `Trace.AccountsFor` : what a line leaves accounts for the line.
* `Trace.frameless`, `Trace.Closes` : the notes on the frame of a program, and those at its end.
* `Reading` : what reading a program leaves behind is well formed.

## Main results

* `Scan.run_eq_handle` : a run handles the handled lines and nothing else.
* `Scan.frameless_run` : the lack of a START is noted once.
* `reading_scanLines` : the reading of any lines in any context is well formed.
-/

namespace Assembler

/-! ### Handled lines -/

/-- The lines that are not blank, with their numbers, where the first line has a given one. -/
def writtenLines (number : Nat) (lines : List String) : List (String × Nat) :=
  (lines.zipIdx number).filter fun (line, _) => !Text.isBlankText line.toList

/-- The lines that are handled, with their numbers: those that are not blank, through the first
END. -/
def handledLines (number : Nat) (lines : List String) : List (String × Nat) :=
  let written := writtenLines number lines
  written.take (written.findIdx (fun (line, _) => isDirectiveLine .finish line) + 1)

/-- Whether a line holds a literal alone. -/
def isLiteralLine (line : String) : Bool :=
  match SourceLine.ofText line with
  | .ok (.literal _) => true
  | _ => false

section

variable {number : Nat} {line : String} {lines : List String}

theorem writtenLines_cons_of_blank (h : Text.isBlankText line.toList = true) :
    writtenLines number (line :: lines) = writtenLines (number + 1) lines := by
  rw [writtenLines, List.zipIdx_cons, List.filter_cons_of_neg (by simp [h])]
  rfl

theorem writtenLines_cons (h : Text.isBlankText line.toList = false) :
    writtenLines number (line :: lines) = (line, number) :: writtenLines (number + 1) lines := by
  rw [writtenLines, List.zipIdx_cons, List.filter_cons_of_pos (by simp [h])]
  rfl

theorem handledLines_cons_of_blank (h : Text.isBlankText line.toList = true) :
    handledLines number (line :: lines) = handledLines (number + 1) lines := by
  rw [handledLines, writtenLines_cons_of_blank h]
  rfl

theorem handledLines_cons_of_finish (h : Text.isBlankText line.toList = false)
    (hfinish : isDirectiveLine .finish line = true) :
    handledLines number (line :: lines) = [(line, number)] := by
  rw [handledLines, writtenLines_cons h]
  simp [List.findIdx_cons, hfinish]

theorem handledLines_cons (h : Text.isBlankText line.toList = false)
    (hfinish : isDirectiveLine .finish line = false) :
    handledLines number (line :: lines) = (line, number) :: handledLines (number + 1) lines := by
  rw [handledLines, writtenLines_cons h]
  simp [List.findIdx_cons, hfinish, handledLines]

theorem mem_handledLines (h : Text.isBlankText line.toList = false) :
    (line, number) ∈ handledLines number (line :: lines) := by
  cases hfinish : isDirectiveLine .finish line with
  | true =>
    rw [handledLines_cons_of_finish h hfinish]
    exact List.mem_singleton_self _
  | false =>
    rw [handledLines_cons h hfinish]
    exact List.mem_cons_self

end

namespace Trace

/-- What several lines leave behind, one after the other. -/
def join (traces : List Trace) : Trace :=
  traces.foldr append {}

end Trace

namespace Scan

/-- Handles numbered lines one after the other: what each of them leaves behind, and the scan after
all of them. -/
def handle : List (String × Nat) → Scan → List Trace × Scan
  | [], scan => ([], scan)
  | (line, number) :: rest, scan =>
    let (trace, next) := scan.step number line
    let (traces, last) := handle rest next
    (trace :: traces, last)

variable {scan : Scan} {number : Nat} {line : String} {lines : List String}

theorem step_of_blank (h : Text.isBlankText line.toList = true) :
    scan.step number line = ({}, scan) := by
  rw [step, if_pos h]

/-- A program ends at an END and nowhere else. -/
theorem phase_step_eq_ended_iff (hphase : scan.phase ≠ .ended) :
    (scan.step number line).2.phase = .ended ↔ isDirectiveLine .finish line = true := by
  refine ⟨fun hended => ?_, phase_step_of_finish hphase⟩
  have hstepped := scan.stepped_step number line
  generalize scan.step number line = outcome at hended hstepped
  cases hstepped with
  | idle => exact absurd hended hphase
  | opened => cases hended
  | proceeded =>
    obtain ⟨statement, hread, hmnemonic⟩ := exists_finish_of_phase_eq_ended hended
    rw [isDirectiveLine, hread]
    exact beq_iff_eq.mpr hmnemonic

/-- A program goes on behind a line that is no END. -/
theorem phase_step_ne_ended (hphase : scan.phase ≠ .ended)
    (hfinish : isDirectiveLine .finish line = false) :
    (scan.step number line).2.phase ≠ .ended := by
  rw [Ne, phase_step_eq_ended_iff hphase, hfinish]
  exact Bool.false_ne_true

/-- A program has begun behind a line that is not blank, and it remains begun. -/
theorem phase_step_ne_opening
    (h : scan.phase ≠ .opening ∨ Text.isBlankText line.toList = false) :
    (scan.step number line).2.phase ≠ .opening := by
  have hstepped := scan.stepped_step number line
  generalize scan.step number line = outcome at hstepped ⊢
  cases hstepped with
  | idle hidle =>
    obtain hbegun | hblank := h
    · exact hbegun
    · simp [hidle.resolve_left (by simp [hblank])]
  | opened => simp [openWith]
  | proceeded => exact phase_proceed_ne_opening

/-- A run handles the handled lines and nothing else. -/
theorem run_eq_handle (hphase : scan.phase ≠ .ended) (number : Nat) (lines : List String) :
    run number lines scan =
      (.join (handle (handledLines number lines) scan).1,
        (handle (handledLines number lines) scan).2) := by
  induction lines generalizing number scan with
  | nil => rfl
  | cons line rest ih =>
    rw [run_cons]
    cases hblank : Text.isBlankText line.toList with
    | true =>
      rw [step_of_blank hblank, handledLines_cons_of_blank hblank, ih hphase]
      rfl
    | false =>
      cases hfinish : isDirectiveLine .finish line with
      | true =>
        rw [handledLines_cons_of_finish hblank hfinish,
          run_of_ended (phase_step_of_finish hphase hfinish)]
        rfl
      | false =>
        rw [handledLines_cons hblank hfinish, ih (phase_step_ne_ended hphase hfinish)]
        rfl

/-- Lines end a program if there is an END among them. -/
theorem phase_run_eq_ended_iff (hphase : scan.phase ≠ .ended) (number : Nat)
    (lines : List String) :
    (run number lines scan).2.phase = .ended ↔ lines.any (isDirectiveLine .finish) = true := by
  induction lines generalizing number scan with
  | nil => simp [run, hphase]
  | cons line rest ih =>
    rw [run_cons, List.any_cons]
    cases hfinish : isDirectiveLine .finish line with
    | true =>
      have hended : (scan.step number line).2.phase = .ended :=
        phase_step_of_finish hphase hfinish
      rw [run_of_ended hended]
      simp [hended]
    | false =>
      rw [Bool.false_or]
      exact ih (phase_step_ne_ended hphase hfinish) (number + 1)

end Scan

/-! ### What a line leaves -/

namespace Trace

/-- What a line leaves accounts for it: one record or one error, or neither if the line holds a
literal alone.  All of it carries the number of the line. -/
structure AccountsFor (trace : Trace) (line : String × Nat) : Prop where
  one : trace.records.length + (trace.diagnostics.filter Diagnostic.isError).length =
    if isLiteralLine line.1 then 0 else 1
  records : ∀ record ∈ trace.records, record.line = line.2
  diagnostics : ∀ diagnostic ∈ trace.diagnostics, diagnostic.line = line.2

variable {number address : Nat} {warnings : List Fault} {result : Except Fault (Option Record)}

private theorem line_of_mem_records_ofLine {record : Located Record}
    (h : record ∈ (ofLine number address warnings result).records) : record.line = number := by
  cases result with
  | error fault => cases h
  | ok record? =>
    cases record? with
    | none => cases h
    | some content => rw [List.mem_singleton.mp h]

private theorem length_ofLine :
    (ofLine number address warnings result).records.length +
        ((ofLine number address warnings result).diagnostics.filter Diagnostic.isError).length =
      if result = .ok none then 0 else 1 := by
  rw [errors_ofLine]
  cases result with
  | error fault => rfl
  | ok record? => cases record? <;> rfl

end Trace

/-- Only a literal alone on its line is executed without a record. -/
private theorem Context.Executed.result_eq_none_iff {context : Context} {line : String}
    {effect : Effect} (h : context.Executed (SourceLine.ofText line) effect) :
    effect.result = .ok none ↔ isLiteralLine line = true := by
  rw [isLiteralLine]
  generalize SourceLine.ofText line = source at h ⊢
  cases h with
  | unread => simp
  | literal => simp
  | @performed statement after result => cases result <;> simp [Except.map]
  | incomplete => simp
  | valueless => simp
  | equated => simp

namespace Scan

variable {scan : Scan} {number : Nat} {line : String} {lines : List String}

/-- A line that is handled is accounted for. -/
theorem accountsFor_step (hphase : scan.phase ≠ .ended)
    (hblank : Text.isBlankText line.toList = false) :
    (scan.step number line).1.AccountsFor (line, number) := by
  have hstepped := scan.stepped_step number line
  generalize scan.step number line = outcome at hstepped ⊢
  cases hstepped with
  | idle hidle => exact (hidle.elim (by simp [hblank]) hphase).elim
  | @opened label operands _ _ hread =>
    refine ⟨Trace.length_ofLine.trans ?_, fun _ => Trace.line_of_mem_records_ofLine,
      fun _ => Trace.line_of_mem_ofLine⟩
    simp [isLiteralLine, hread]
  | proceeded =>
    refine ⟨Trace.length_ofLine.trans ?_, fun _ => Trace.line_of_mem_records_ofLine,
      fun _ => Trace.line_of_mem_ofLine⟩
    simp only [(Context.executed_execute scan.context _).result_eq_none_iff]

/-- All lines that are handled are accounted for. -/
private theorem accountsFor_handle (hphase : scan.phase ≠ .ended) (number : Nat)
    (lines : List String) :
    List.Forall₂ Trace.AccountsFor (handle (handledLines number lines) scan).1
      (handledLines number lines) := by
  induction lines generalizing number scan with
  | nil => exact .nil
  | cons line rest ih =>
    cases hblank : Text.isBlankText line.toList with
    | true =>
      rw [handledLines_cons_of_blank hblank]
      exact ih hphase (number + 1)
    | false =>
      have hline : (scan.step number line).1.AccountsFor (line, number) :=
        accountsFor_step hphase hblank
      cases hfinish : isDirectiveLine .finish line with
      | true =>
        rw [handledLines_cons_of_finish hblank hfinish]
        exact .cons hline .nil
      | false =>
        rw [handledLines_cons hblank hfinish]
        exact .cons hline (ih (phase_step_ne_ended hphase hfinish) (number + 1))

/-- The diagnostics of a step carry its number. -/
theorem line_of_mem_diagnostics_step {diagnostic : Diagnostic}
    (h : diagnostic ∈ (scan.step number line).1.diagnostics) : diagnostic.line = number := by
  have hstepped := scan.stepped_step number line
  generalize scan.step number line = outcome at h hstepped
  cases hstepped with
  | idle => cases h
  | opened => exact Trace.line_of_mem_ofLine h
  | proceeded => exact Trace.line_of_mem_ofLine h

/-- The diagnostics of a run carry the numbers of its lines. -/
theorem line_mem_of_mem_diagnostics {diagnostic : Diagnostic}
    (h : diagnostic ∈ (run number lines scan).1.diagnostics) :
    number ≤ diagnostic.line ∧ diagnostic.line < number + lines.length := by
  induction lines generalizing number scan with
  | nil => cases h
  | cons line rest ih =>
    rw [List.length_cons]
    rcases List.mem_append.mp h with hfirst | hrest
    · have hline := line_of_mem_diagnostics_step hfirst
      omega
    · have hlines := ih hrest
      omega

/-- The diagnostics of a run come in the order of its lines. -/
theorem diagnostics_run_pairwise (number : Nat) (lines : List String) (scan : Scan) :
    (run number lines scan).1.diagnostics.Pairwise fun earlier later =>
      earlier.line ≤ later.line := by
  induction lines generalizing number scan with
  | nil => exact List.Pairwise.nil
  | cons line rest ih =>
    rw [run_cons]
    refine List.pairwise_append.mpr ⟨?_, ih (number + 1) _, ?_⟩
    · refine List.pairwise_of_forall_mem_list fun earlier hearlier later hlater => ?_
      rw [line_of_mem_diagnostics_step hearlier, line_of_mem_diagnostics_step hlater]
    · intro earlier hearlier later hlater
      rw [line_of_mem_diagnostics_step hearlier]
      exact Nat.le_of_succ_le (line_mem_of_mem_diagnostics hlater).1

end Scan

/-! ### START and END records -/

namespace Scan

variable {scan : Scan} {number : Nat} {line : String} {lines : List String}

/-- A line leaves a START record exactly if it is the START that opens the program. -/
theorem any_isStart_step :
    (scan.step number line).1.records.any (·.content.isStart) =
      (scan.phase == .opening && isDirectiveLine .start line) := by
  have hstepped := scan.stepped_step number line
  generalize scan.step number line = outcome at hstepped ⊢
  cases hstepped with
  | idle hidle =>
    obtain hblank | hended := hidle
    · rw [isDirectiveLine_of_blank hblank, Bool.and_false]
      rfl
    · rw [hended]
      rfl
  | opened _ hphase hread =>
    rw [hphase, isDirectiveLine, hread]
    rfl
  | proceeded _ _ _ hread =>
    have hother : (scan.phase == .opening && isDirectiveLine .start line) = false := by
      by_cases hopening : scan.phase = .opening
      · rw [isDirectiveLine_start_of_ofText (hread hopening), Bool.and_false]
      · rw [beq_eq_false_iff_ne.mpr hopening, Bool.false_and]
    rw [hother, List.any_eq_false]
    intro record hmem
    have hresult := (Trace.eq_of_mem_records_ofLine hmem).2
    rw [(Context.executed_execute _ _).isStart_eq_false hresult]
    exact Bool.false_ne_true

private theorem any_isStart_run_of_ne_opening (hphase : scan.phase ≠ .opening) (number : Nat)
    (lines : List String) :
    (run number lines scan).1.records.any (·.content.isStart) = false := by
  induction lines generalizing number scan with
  | nil => rfl
  | cons line rest ih =>
    rw [run_cons]
    dsimp only [Trace.append]
    rw [List.any_append, any_isStart_step, ih (phase_step_ne_opening (.inl hphase)),
      beq_eq_false_iff_ne.mpr hphase]
    rfl

/-- Lines leave a START record exactly if the first of them that is not blank is a START. -/
theorem any_isStart_run (hphase : scan.phase = .opening) (number : Nat) (lines : List String) :
    (run number lines scan).1.records.any (·.content.isStart) =
      (writtenLines number lines).head?.any fun (line, _) => isDirectiveLine .start line := by
  induction lines generalizing number with
  | nil => rfl
  | cons line rest ih =>
    rw [run_cons]
    cases hblank : Text.isBlankText line.toList with
    | true =>
      rw [step_of_blank hblank, writtenLines_cons_of_blank hblank]
      exact ih (number + 1)
    | false =>
      dsimp only [Trace.append]
      rw [List.any_append, any_isStart_step,
        any_isStart_run_of_ne_opening (phase_step_ne_opening (.inr hblank)), Bool.or_false,
        writtenLines_cons hblank, hphase]
      rfl

/-- Only the first record is that of a START. -/
theorem any_isStart_tail_run (number : Nat) (lines : List String) (scan : Scan) :
    (run number lines scan).1.records.tail.any (·.content.isStart) = false := by
  induction lines generalizing number scan with
  | nil => rfl
  | cons line rest ih =>
    rw [run_cons]
    dsimp only [Trace.append]
    obtain hnone | ⟨record, hrecord, -⟩ := (scan.stepped_step number line).records
    · rw [hnone]
      exact ih (number + 1) _
    · have hmem : record ∈ (scan.step number line).1.records := by
        rw [hrecord]
        exact List.mem_singleton_self _
      rw [hrecord]
      exact any_isStart_run_of_ne_opening (phase_of_records hmem).2 (number + 1) rest

/-- A line that is no END leaves no END record. -/
theorem any_isEnd_step (h : isDirectiveLine .finish line = false) :
    (scan.step number line).1.records.any (·.content.isEnd) = false := by
  have hstepped := scan.stepped_step number line
  generalize scan.step number line = outcome at hstepped ⊢
  cases hstepped with
  | idle => rfl
  | opened => rfl
  | proceeded =>
    rw [List.any_eq_false]
    intro record hmem hend
    have hresult := (Trace.eq_of_mem_records_ofLine hmem).2
    rw [(Context.executed_execute _ _).finish_of_isEnd hresult hend] at h
    cases h

/-- A line leaves one record at most. -/
theorem dropLast_records_step : (scan.step number line).1.records.dropLast = [] := by
  obtain hnone | ⟨record, hrecord, -⟩ := (scan.stepped_step number line).records
  · rw [hnone]
    rfl
  · rw [hrecord]
    rfl

/-- Only the last record is that of an END. -/
theorem any_isEnd_dropLast_run (number : Nat) (lines : List String) (scan : Scan) :
    (run number lines scan).1.records.dropLast.any (·.content.isEnd) = false := by
  induction lines generalizing number scan with
  | nil => rfl
  | cons line rest ih =>
    by_cases hphase : scan.phase = .ended
    · rw [run_of_ended hphase]
      rfl
    · rw [run_cons]
      dsimp only [Trace.append]
      cases hfinish : isDirectiveLine .finish line with
      | true =>
        rw [run_of_ended (phase_step_of_finish hphase hfinish), List.append_nil,
          dropLast_records_step]
        rfl
      | false =>
        rw [List.dropLast_append]
        split_ifs
        · rw [dropLast_records_step]
          rfl
        · rw [List.any_append, any_isEnd_step hfinish, ih (number + 1)]
          rfl

end Scan

/-! ### The lack of a START or an END -/

namespace Scan

variable {scan : Scan} {number : Nat} {line : String} {lines : List String}

/-- The lack of a START is noted on the first line that is not blank, if that is no START. -/
theorem frameless_step :
    (scan.step number line).1.frameless =
      if scan.phase = .opening ∧ Text.isBlankText line.toList = false ∧
          isDirectiveLine .start line = false then
        [⟨number, .warning, .missingStart⟩]
      else [] := by
  have hstepped := scan.stepped_step number line
  generalize scan.step number line = outcome at hstepped ⊢
  cases hstepped with
  | idle hidle =>
    rw [if_neg]
    · rfl
    · rintro ⟨hopening, hblank, -⟩
      rw [hopening, hblank] at hidle
      simp at hidle
  | @opened label operands _ _ hread =>
    have hstart : isDirectiveLine .start line = true := by
      rw [isDirectiveLine, hread]
      rfl
    rw [if_neg (by simp [hstart])]
    refine Trace.frameless_ofLine [] (fun fault hmem => ?_) fun fault h => by cases h
    rcases List.mem_append.mp hmem with hunusable | hrebound
    · exact Fault.missesFrame_of_stops (stops_of_startAddress hunusable)
    · exact Context.missesFrame_of_bindLabel _ _ hrebound
  | @proceeded warnings hblank _ hwarnings hread =>
    refine (Trace.frameless_ofLine warnings
      (fun fault => (Context.executed_execute _ _).missesFrame)
      fun fault => Context.stops_of_execute).trans ?_
    rw [hwarnings]
    by_cases hopening : scan.phase = .opening
    · rw [if_pos hopening,
        if_pos ⟨hopening, hblank, isDirectiveLine_start_of_ofText (hread hopening)⟩]
      rfl
    · rw [if_neg hopening, if_neg fun h => hopening h.1]
      rfl

private theorem frameless_run_of_ne_opening (hphase : scan.phase ≠ .opening) (number : Nat)
    (lines : List String) : (run number lines scan).1.frameless = [] := by
  induction lines generalizing number scan with
  | nil => rfl
  | cons line rest ih =>
    rw [run_cons]
    dsimp only
    rw [Trace.frameless_append, frameless_step, if_neg fun h => hphase h.1,
      ih (phase_step_ne_opening (.inl hphase))]
    rfl

end Scan

/-- The warning that a program has no START: it stands on the first line that is not blank. -/
def startWarning? (number : Nat) (lines : List String) : Option Diagnostic :=
  match (writtenLines number lines).head? with
  | none => none
  | some (line, first) =>
    if isDirectiveLine .start line then none else some ⟨first, .warning, .missingStart⟩

/-- The warning that a program has no END: it stands on the last line. -/
def endWarning? (lines : List String) : Option Diagnostic :=
  if lines.any (isDirectiveLine .finish) then none
  else some ⟨lines.length, .warning, .missingEnd⟩

namespace Scan

variable {scan : Scan}

/-- The lack of a START is noted once. -/
theorem frameless_run (hphase : scan.phase = .opening) (number : Nat) (lines : List String) :
    (run number lines scan).1.frameless = (startWarning? number lines).toList := by
  induction lines generalizing number with
  | nil => rfl
  | cons line rest ih =>
    rw [run_cons]
    cases hblank : Text.isBlankText line.toList with
    | true =>
      rw [step_of_blank hblank, startWarning?, writtenLines_cons_of_blank hblank]
      exact ih (number + 1)
    | false =>
      dsimp only
      rw [Trace.frameless_append, frameless_step,
        frameless_run_of_ne_opening (phase_step_ne_opening (.inr hblank)), List.append_nil,
        startWarning?, writtenLines_cons hblank]
      cases hstart : isDirectiveLine .start line <;> simp [hphase, hblank, hstart]

end Scan

/-! ### Whole programs -/

/-- What is left behind at the end of a program: the warning that there is no END, if there is none,
and then at most the error that there is no room for the literals that wait. -/
def Trace.Closes (trace : Trace) (lines : List String) : Prop :=
  ∃ rest, trace = ⟨[], (endWarning? lines).toList ++ rest⟩ ∧
    (rest = [] ∨ endWarning? lines ≠ none ∧
      ∃ location words, rest = [⟨lines.length, .error, .locationOverflow location words⟩])

/-- What each handled line of a program leaves behind. -/
def handledTraces (lines : List String) (context : Context) : List Trace :=
  (Scan.handle (handledLines 1 lines) ⟨.opening, context⟩).1

/-- The scan after the handled lines of a program. -/
def handledScan (lines : List String) (context : Context) : Scan :=
  (Scan.handle (handledLines 1 lines) ⟨.opening, context⟩).2

/-- What is left behind at the end of a program. -/
def closingTrace (lines : List String) (context : Context) : Trace :=
  ((handledScan lines context).finish lines.length).1

/-- What reading the lines of a program leaves behind is well formed. -/
structure Reading (lines : List String) (context : Context) : Prop where
  /-- The handled lines are handled, then the program is closed, and nothing else is done. -/
  handled : scanLines lines context =
    ((Trace.join (handledTraces lines context)).append (closingTrace lines context),
      ((handledScan lines context).finish lines.length).2)
  accounted : List.Forall₂ Trace.AccountsFor (handledTraces lines context) (handledLines 1 lines)
  closes : (closingTrace lines context).Closes lines
  numbered : ∀ record ∈ (scanLines lines context).1.records,
    record.line ∈ (handledLines 1 lines).map Prod.snd
  increasing : (scanLines lines context).1.records.Pairwise fun earlier later =>
    earlier.line < later.line
  ordered : (scanLines lines context).1.diagnostics.Pairwise fun earlier later =>
    earlier.line ≤ later.line
  start_first : (scanLines lines context).1.records.tail.any (·.content.isStart) = false
  start_iff : (scanLines lines context).1.records.any (·.content.isStart) =
    (writtenLines 1 lines).head?.any fun (line, _) => isDirectiveLine .start line
  end_last : (scanLines lines context).1.records.dropLast.any (·.content.isEnd) = false
  /-- The lack of a START and that of an END are noted once each. -/
  frame : (scanLines lines context).1.frameless =
    (startWarning? 1 lines).toList ++ (endWarning? lines).toList

namespace Trace

private theorem line_mem_of_accountsFor {traces : List Trace} {lines : List (String × Nat)}
    (h : List.Forall₂ AccountsFor traces lines) {record : Located Record}
    (hmem : record ∈ (join traces).records) : record.line ∈ lines.map Prod.snd := by
  induction h with
  | nil => cases hmem
  | cons hline _ ih =>
    rcases List.mem_append.mp hmem with hfirst | hrest
    · exact List.mem_cons.mpr (.inl (hline.records record hfirst))
    · exact List.mem_cons_of_mem _ (ih hrest)

variable {trace : Trace} {lines : List String}

theorem Closes.records (h : trace.Closes lines) : trace.records = [] := by
  obtain ⟨rest, rfl, -⟩ := h
  rfl

/-- What is noted at the end of a program is noted on its last line. -/
theorem Closes.line_eq (h : trace.Closes lines) {diagnostic : Diagnostic}
    (hmem : diagnostic ∈ trace.diagnostics) : diagnostic.line = lines.length := by
  obtain ⟨rest, rfl, hrest⟩ := h
  rcases List.mem_append.mp hmem with hwarning | hroom
  · rw [Option.mem_toList, endWarning?] at hwarning
    split_ifs at hwarning
    rw [← Option.some.inj hwarning]
  · obtain rfl | ⟨-, location, words, rfl⟩ := hrest
    · cases hroom
    · rw [List.mem_singleton.mp hroom]

theorem Closes.frameless (h : trace.Closes lines) :
    trace.frameless = (endWarning? lines).toList := by
  obtain ⟨rest, rfl, hrest⟩ := h
  have hnone : rest.filter (·.fault.missesFrame) = [] := by
    obtain rfl | ⟨-, location, words, rfl⟩ := hrest <;> rfl
  rw [Trace.frameless, List.filter_append, hnone, List.append_nil, endWarning?]
  split_ifs <;> rfl

end Trace

/-- A program is closed as far as its lines leave it open. -/
theorem closes_closingTrace (lines : List String) (context : Context) :
    (closingTrace lines context).Closes lines := by
  have hphase : (Scan.mk .opening context).phase ≠ .ended := by simp
  have hended := Scan.phase_run_eq_ended_iff hphase 1 lines
  rw [Scan.run_eq_handle hphase] at hended
  change (handledScan lines context).phase = .ended ↔ _ at hended
  rw [closingTrace, Scan.finish]
  split
  · rename_i hphase
    rw [Trace.Closes, endWarning?, if_pos (hended.mp hphase)]
    exact ⟨[], rfl, .inl rfl⟩
  · rename_i hphase
    rw [Trace.Closes, endWarning?, if_neg (mt hended.mpr hphase)]
    cases hclose : (handledScan lines context).context.close with
    | ok closed => exact ⟨[], rfl, .inl rfl⟩
    | error fault =>
      refine ⟨[⟨lines.length, .error, fault⟩], rfl, .inr ⟨Option.some_ne_none _, ?_⟩⟩
      obtain ⟨location, words, rfl⟩ := Context.exists_locationOverflow_of_close hclose
      exact ⟨location, words, rfl⟩

/-- The reading of any lines in any context is well formed. -/
theorem reading_scanLines (lines : List String) (context : Context) : Reading lines context := by
  have hphase : (Scan.mk .opening context).phase ≠ .ended := by simp
  have hrun := Scan.run_eq_handle hphase 1 lines
  have haccounted := Scan.accountsFor_handle hphase 1 lines
  have hcloses := closes_closingTrace lines context
  have hhandled : scanLines lines context =
      ((Scan.run 1 lines ⟨.opening, context⟩).1.append (closingTrace lines context),
        ((handledScan lines context).finish lines.length).2) := by
    rw [scanLines, hrun]
    rfl
  have hrecords : (scanLines lines context).1.records =
      (Scan.run 1 lines ⟨.opening, context⟩).1.records := by
    rw [hhandled]
    dsimp only [Trace.append]
    rw [hcloses.records, List.append_nil]
  exact
    { handled := by
        rw [hhandled, hrun]
        rfl
      accounted := haccounted
      closes := hcloses
      numbered := by
        intro record hmem
        rw [hrecords, hrun] at hmem
        exact Trace.line_mem_of_accountsFor haccounted hmem
      increasing := by
        rw [hrecords]
        exact Scan.records_run_pairwise 1 lines _
      ordered := by
        rw [hhandled]
        refine List.pairwise_append.mpr ⟨Scan.diagnostics_run_pairwise 1 lines _, ?_, ?_⟩
        · refine List.pairwise_of_forall_mem_list fun earlier hearlier later hlater => ?_
          rw [hcloses.line_eq hearlier, hcloses.line_eq hlater]
        · intro earlier hearlier later hlater
          have hline := (Scan.line_mem_of_mem_diagnostics hearlier).2
          rw [hcloses.line_eq hlater]
          omega
      start_first := by
        rw [hrecords]
        exact Scan.any_isStart_tail_run 1 lines _
      start_iff := by
        rw [hrecords]
        exact Scan.any_isStart_run rfl 1 lines
      end_last := by
        rw [hrecords]
        exact Scan.any_isEnd_dropLast_run 1 lines _
      frame := by
        rw [hhandled]
        dsimp only
        rw [Trace.frameless_append, Scan.frameless_run rfl, hcloses.frameless] }

end Assembler
