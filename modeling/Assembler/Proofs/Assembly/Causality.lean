import Assembler.Proofs.Assembly.Stream

/-!
# What lines leave behind depends on no later line

Lines are read one after the other, and nothing is ever taken back.  Once an END has been read the
program is over, and whatever follows it might as well not be there.  As long as no END has been
read, more lines only add to what there is: records and diagnostics come behind the earlier ones,
and so do names and literals in their tables, so that no index changes its meaning.

What cannot be kept is what was noted because the program was cut short, namely that there is no
END, and perhaps that there is no room for the literals that wait.

## Main definitions

* `CutShort` : the notes on a program whose lines run out before an END.
* `Continued` : what further lines make of lines without an END.

## Main results

* `scanLines_of_ended` : nothing is read behind an END.
* `continued_of_not_ended` : lines without an END are continued.
* `causal_scanLines` : both at once, for any lines in any context.
-/

namespace Assembler

/-- The notes on a program of `count` lines that run out before an END: first those on its lines,
none of which notes the lack of an END; then the warning that there is none; and then at most the
error that there is no room for the literals that wait. -/
def CutShort (notes : List Diagnostic) (count : Nat) (kept : List Diagnostic) : Prop :=
  (∀ diagnostic ∈ kept, diagnostic.fault ≠ .missingEnd) ∧
    ∃ rest, notes = kept ++ ⟨count, .warning, .missingEnd⟩ :: rest ∧
      (rest = [] ∨ ∃ location words, rest = [⟨count, .error, .locationOverflow location words⟩])

/-- What reading lines leaves behind is continued by what reading more lines does. -/
structure Continued (earlier later : Trace × Context) (count : Nat) : Prop where
  records : earlier.1.records <+: later.1.records
  /-- All notes are kept but for those that were made because the lines had run out. -/
  diagnostics : ∃ kept, CutShort earlier.1.diagnostics count kept ∧
    kept <+: later.1.diagnostics
  names : earlier.2.symbols.names <+: later.2.symbols.names
  texts : earlier.2.literals.texts <+: later.2.literals.texts

variable {first : List String} {context : Context}

/-- Nothing is read behind an END. -/
theorem scanLines_of_ended (h : first.any (isDirectiveLine .finish) = true)
    (second : List String) : scanLines (first ++ second) context = scanLines first context := by
  have hended : (Scan.run 1 first ⟨.opening, context⟩).2.phase = .ended :=
    (Scan.phase_run_eq_ended_iff (by simp) 1 first).mpr h
  have hfinish (count : Nat) : (Scan.run 1 first ⟨.opening, context⟩).2.finish count =
      ({}, (Scan.run 1 first ⟨.opening, context⟩).2.context) := by
    rw [Scan.finish, hended]
  have hsame : Scan.run 1 (first ++ second) ⟨.opening, context⟩ =
      Scan.run 1 first ⟨.opening, context⟩ := by
    rw [Scan.run_append, Scan.run_of_ended hended]
    simp [Trace.append]
  rw [scanLines, scanLines, hsame]
  simp only [hfinish]

/-- No line notes the lack of an END. -/
theorem fault_ne_missingEnd_of_mem_run {diagnostic : Diagnostic}
    (h : diagnostic ∈ (Scan.run 1 first ⟨.opening, context⟩).1.diagnostics) :
    diagnostic.fault ≠ .missingEnd := by
  intro hmissing
  have hframe : diagnostic ∈ (Scan.run 1 first ⟨.opening, context⟩).1.frameless :=
    List.mem_filter.mpr ⟨h, by rw [hmissing]; rfl⟩
  rw [Scan.frameless_run rfl, Option.mem_toList, startWarning?] at hframe
  split at hframe
  · cases hframe
  · split_ifs at hframe
    -- what a line notes is the lack of a START
    rw [← Option.some.inj hframe] at hmissing
    cases hmissing

/-- The notes on lines without an END. -/
private theorem cutShort_of_not_ended (h : first.any (isDirectiveLine .finish) = false) :
    CutShort (scanLines first context).1.diagnostics first.length
      (Scan.run 1 first ⟨.opening, context⟩).1.diagnostics := by
  refine ⟨fun diagnostic => fault_ne_missingEnd_of_mem_run, ?_⟩
  have hphase : (Scan.run 1 first ⟨.opening, context⟩).2.phase ≠ .ended := by
    rw [Ne, Scan.phase_run_eq_ended_iff (by simp), h]
    exact Bool.false_ne_true
  cases hclose : (Scan.run 1 first ⟨.opening, context⟩).2.context.close with
  | ok closed =>
    refine ⟨[], ?_, .inl rfl⟩
    rw [scanLines]
    dsimp only
    rw [Scan.finish_of_close_eq_ok hphase hclose]
    rfl
  | error fault =>
    obtain ⟨location, words, rfl⟩ := Context.exists_locationOverflow_of_close hclose
    refine ⟨_, ?_, .inr ⟨location, words, rfl⟩⟩
    rw [scanLines]
    dsimp only
    rw [Scan.finish_of_close_eq_error hphase hclose]
    rfl

/-- The records of a program are those of its lines. -/
theorem records_scanLines (lines : List String) (context : Context) :
    (scanLines lines context).1.records =
      (Scan.run 1 lines ⟨.opening, context⟩).1.records := by
  rw [scanLines]
  dsimp only [Trace.append]
  rw [Scan.records_finish, List.append_nil]

/-- What the lines of a program leave behind is left behind by the program. -/
theorem prefix_diagnostics_scanLines (lines : List String) (context : Context) :
    (Scan.run 1 lines ⟨.opening, context⟩).1.diagnostics <+:
      (scanLines lines context).1.diagnostics :=
  List.prefix_append _ _

/-- The rows of the tables in the end are those after the lines of a program. -/
theorem rows_scanLines (lines : List String) (context : Context) :
    (scanLines lines context).2.symbols =
        (Scan.run 1 lines ⟨.opening, context⟩).2.context.symbols ∧
      (scanLines lines context).2.literals.texts =
        (Scan.run 1 lines ⟨.opening, context⟩).2.context.literals.texts :=
  Scan.rows_finish _ _

/-- Lines without an END are continued by whatever lines follow them. -/
theorem continued_of_not_ended (h : first.any (isDirectiveLine .finish) = false)
    (second : List String) :
    Continued (scanLines first context) (scanLines (first ++ second) context) first.length := by
  have hrun := Scan.run_append 1 first second ⟨.opening, context⟩
  have hgrows : (Scan.run 1 first ⟨.opening, context⟩).2.context.Grows
      (Scan.run 1 (first ++ second) ⟨.opening, context⟩).2.context := by
    rw [hrun]
    exact Scan.grows_run _ second _
  exact
    { records := by
        rw [records_scanLines, records_scanLines, hrun]
        exact List.prefix_append _ _
      diagnostics := by
        refine ⟨_, cutShort_of_not_ended h, ?_⟩
        refine List.IsPrefix.trans ?_ (prefix_diagnostics_scanLines (first ++ second) context)
        rw [hrun]
        exact List.prefix_append _ _
      names := by
        rw [(rows_scanLines first context).1, (rows_scanLines (first ++ second) context).1]
        exact hgrows.names
      texts := by
        rw [(rows_scanLines first context).2, (rows_scanLines (first ++ second) context).2]
        exact hgrows.texts }

/-- What reading lines leaves behind depends on no later line: behind an END nothing is read, and
lines without an END are continued. -/
theorem causal_scanLines (first second : List String) (context : Context) :
    if first.any (isDirectiveLine .finish) then
      scanLines (first ++ second) context = scanLines first context
    else
      Continued (scanLines first context) (scanLines (first ++ second) context)
        first.length := by
  split_ifs with h
  · exact scanLines_of_ended h second
  · exact continued_of_not_ended (by simpa using h) second

end Assembler
