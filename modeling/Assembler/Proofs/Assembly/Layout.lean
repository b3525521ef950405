import Assembler.Proofs.Assembly.Stream
import Assembler.Proofs.Text.Line

/-!
# Layout does not matter

Of a line that is not blank only its words matter, and of a program only the words of these lines.
How words are separated, where lines are left blank and how lines end is never seen but in the
numbers of lines: two programs with the same words, line by line, leave the same records and report
the same, each of them on the line that corresponds.  What is reported at the end of a program names
the number of all its lines.

Where also the same lines are blank the two programs assemble to the same.  This is so for a text
and the one in which every line ends in a carriage return and a line feed.

## Main definitions

* `Text.words`, `lineNumbers`, `SameWords` : what matters of a program.
* `Located.Moved`, `Diagnostic.Moved`, `Trace.Moved` : the same on lines that correspond.
* `Relined` : what programs with the same words have in common.
* `withReturns` : a text with a carriage return in front of every line feed.

## Main results

* `Scan.run_eq_handle_written` : a program is read as its written lines are handled.
* `Scan.handle_moved` : written lines that stand elsewhere.
* `relined_of_sameWords` : whole programs.
-/

namespace Assembler

/-! ### What matters of a program -/

/-- The words of a text: the longest runs of characters of which none is blank or a comma. -/
def Text.words (text : List Char) : List (List Char) :=
  (text.splitOnP isSeparator).filter fun run => !run.isEmpty

/-- The numbers of the lines of a program that are not blank. -/
def lineNumbers (text : String) : List Nat :=
  (writtenLines 1 (programLines text)).map Prod.snd

/-- The lines of two programs that are not blank have the same words, one by one. -/
def SameWords (text text' : String) : Prop :=
  (writtenLines 1 (programLines text)).map (fun line => Text.words line.1.toList) =
    (writtenLines 1 (programLines text')).map fun line => Text.words line.1.toList

/-- Having the same words is decidable. -/
instance (text text' : String) : Decidable (SameWords text text') :=
  inferInstanceAs (Decidable (_ = _))

/-- Lines correspond if they are at the same place among those that are not blank. -/
def Corresponds (text text' : String) (number number' : Nat) : Prop :=
  (number, number') ∈ (lineNumbers text).zip (lineNumbers text')

/-! ### The same on other lines -/

/-- A thing on another line. -/
def Located.onLine {α : Type} (number : Nat) (located : Located α) : Located α :=
  { located with line := number }

/-- A diagnostic on another line. -/
def Diagnostic.onLine (number : Nat) (diagnostic : Diagnostic) : Diagnostic :=
  { diagnostic with line := number }

/-- What a line leaves behind, on another line. -/
def Trace.onLine (number : Nat) (trace : Trace) : Trace where
  records := trace.records.map (Located.onLine number)
  diagnostics := trace.diagnostics.map (Diagnostic.onLine number)

section

variable (related : Nat → Nat → Prop)

/-- The same thing on a related line. -/
def Located.Moved {α : Type} (located moved : Located α) : Prop :=
  related located.line moved.line ∧ moved = located.onLine moved.line

/-- The same diagnostic on a related line. -/
def Diagnostic.Moved (diagnostic moved : Diagnostic) : Prop :=
  related diagnostic.line moved.line ∧ moved = diagnostic.onLine moved.line

/-- The same records and diagnostics in the same order on related lines. -/
structure Trace.Moved (trace moved : Trace) : Prop where
  records : List.Forall₂ (Located.Moved related) trace.records moved.records
  diagnostics : List.Forall₂ (Diagnostic.Moved related) trace.diagnostics moved.diagnostics

end

namespace Trace

variable {related related' : Nat → Nat → Prop} {trace moved : Trace}

theorem Moved.nil (related : Nat → Nat → Prop) : Moved related {} {} :=
  ⟨.nil, .nil⟩

theorem Moved.imp (h : Moved related trace moved)
    (himp : ∀ number number', related number number' → related' number number') :
    Moved related' trace moved :=
  ⟨h.records.imp fun _ _ hmoved => ⟨himp _ _ hmoved.1, hmoved.2⟩,
    h.diagnostics.imp fun _ _ hmoved => ⟨himp _ _ hmoved.1, hmoved.2⟩⟩

theorem Moved.append {rest rest' : Trace} (h : Moved related trace moved)
    (hrest : Moved related rest rest') : Moved related (trace.append rest) (moved.append rest') :=
  ⟨List.rel_append h.records hrest.records, List.rel_append h.diagnostics hrest.diagnostics⟩

/-- What stands on one line, on a line that is related to it. -/
private theorem moved_onLine {number number' : Nat} (hnumber : related number number')
    (hrecords : ∀ record ∈ trace.records, record.line = number)
    (hdiagnostics : ∀ diagnostic ∈ trace.diagnostics, diagnostic.line = number) :
    Moved related trace (trace.onLine number') := by
  constructor
  · rw [onLine, List.forall₂_map_right_iff, List.forall₂_same]
    intro record hmem
    rw [← hrecords record hmem] at hnumber
    exact ⟨hnumber, rfl⟩
  · rw [onLine, List.forall₂_map_right_iff, List.forall₂_same]
    intro diagnostic hmem
    rw [← hdiagnostics diagnostic hmem] at hnumber
    exact ⟨hnumber, rfl⟩

private theorem onLine_ofLine (number number' address : Nat) (warnings : List Fault)
    (result : Except Fault (Option Record)) :
    (ofLine number address warnings result).onLine number' =
      ofLine number' address warnings result := by
  have hwarned : (warnings.map (Diagnostic.mk number .warning)).map (Diagnostic.onLine number') =
      warnings.map (Diagnostic.mk number' .warning) := by
    rw [List.map_map]
    rfl
  cases result with
  | error fault =>
    change Trace.mk [] ((_ ++ [Diagnostic.mk number .error fault]).map _) = Trace.mk [] _
    rw [List.map_append, hwarned]
    rfl
  | ok record? =>
    refine congrArg₂ Trace.mk ?_ hwarned
    cases record? <;> rfl

end Trace

/-! ### Lines -/

namespace Scan

variable {scan : Scan} {number number' : Nat} {line line' : String}

private theorem proceed_onLine (number number' : Nat) (warnings : List Fault)
    (source : Except Fault SourceLine) (context : Context) :
    proceed number' warnings source context =
      ((proceed number warnings source context).1.onLine number',
        (proceed number warnings source context).2) := by
  unfold proceed
  rw [Trace.onLine_ofLine]

private theorem openWith_onLine (number number' : Nat) (label? : Option String)
    (operands : Operands) (context : Context) :
    openWith number' label? operands context =
      ((openWith number label? operands context).1.onLine number',
        (openWith number label? operands context).2) := by
  unfold openWith
  rw [Trace.onLine_ofLine]

/-- A line that reads the same leaves the same, with its own number. -/
private theorem step_onLine (hblank : Text.isBlankText line.toList = false)
    (hblank' : Text.isBlankText line'.toList = false)
    (hread : SourceLine.ofText line' = SourceLine.ofText line) :
    scan.step number' line' =
      ((scan.step number line).1.onLine number', (scan.step number line).2) := by
  rw [step, step, hblank, hblank', hread, if_neg Bool.false_ne_true, if_neg Bool.false_ne_true]
  obtain ⟨phase, context⟩ := scan
  cases phase with
  | ended => rfl
  | body => exact proceed_onLine number number' [] _ context
  | opening =>
    dsimp only
    rw [begin, begin]
    cases (SourceLine.ofText line).toOption.bind SourceLine.start? with
    | none => exact proceed_onLine number number' _ _ context
    | some start => exact openWith_onLine number number' start.1 start.2 context

/-- A run handles the lines that are not blank. -/
theorem run_eq_handle_written (number : Nat) (lines : List String) (scan : Scan) :
    run number lines scan =
      (.join (handle (writtenLines number lines) scan).1,
        (handle (writtenLines number lines) scan).2) := by
  induction lines generalizing number scan with
  | nil => rfl
  | cons line rest ih =>
    rw [run_cons, ih]
    by_cases hblank : Text.isBlankText line.toList = true
    · rw [step_of_blank hblank, writtenLines_cons_of_blank hblank]
      rfl
    · rw [writtenLines_cons (by simpa using hblank)]
      rfl

/-- Lines that read the same, one by one, leave the same. -/
theorem handle_moved {written written' : List (String × Nat)}
    (h : List.Forall₂ (fun line line' => SourceLine.ofText line'.1 = SourceLine.ofText line.1)
      written written')
    (hblank : ∀ line ∈ written, Text.isBlankText line.1.toList = false)
    (hblank' : ∀ line ∈ written', Text.isBlankText line.1.toList = false) (scan : Scan) :
    (handle written' scan).2 = (handle written scan).2 ∧
      Trace.Moved
        (fun number number' =>
          (number, number') ∈ (written.map Prod.snd).zip (written'.map Prod.snd))
        (.join (handle written scan).1) (.join (handle written' scan).1) := by
  induction h generalizing scan with
  | nil => exact ⟨rfl, .nil _⟩
  | @cons line line' rest rest' hread _ ih =>
    obtain ⟨text, number⟩ := line
    obtain ⟨text', number'⟩ := line'
    have hstep : scan.step number' text' =
        ((scan.step number text).1.onLine number', (scan.step number text).2) :=
      step_onLine (hblank _ List.mem_cons_self) (hblank' _ List.mem_cons_self) hread
    obtain ⟨hlast, hmoved⟩ := ih (fun other hother => hblank other (List.mem_cons_of_mem _ hother))
      (fun other hother => hblank' other (List.mem_cons_of_mem _ hother))
      (scan.step number text).2
    rw [handle, handle, hstep]
    refine ⟨hlast, Trace.Moved.append ?_ ?_⟩
    · exact Trace.moved_onLine List.mem_cons_self (fun _ => line_of_mem_records_step)
        fun _ => line_of_mem_diagnostics_step
    · exact hmoved.imp fun _ _ hmem => List.mem_cons_of_mem _ hmem

/-- The end of a program names the number of its lines. -/
private theorem finish_onLine (count count' : Nat) (scan : Scan) :
    scan.finish count' = ((scan.finish count).1.onLine count', (scan.finish count).2) := by
  obtain ⟨phase, context⟩ := scan
  have hopen : finish count' ⟨.body, context⟩ =
      ((finish count ⟨.body, context⟩).1.onLine count', (finish count ⟨.body, context⟩).2) := by
    rw [finish, finish]
    dsimp only
    cases context.close <;> rfl
  cases phase with
  | ended => rfl
  | opening => exact hopen
  | body => exact hopen

end Scan

/-! ### Encoding -/

/-- Records on other lines have the same words and errors, on these lines. -/
private theorem Context.image_moved {related : Nat → Nat → Prop} (context : Context)
    {records records' : List (Located Record)}
    (h : List.Forall₂ (Located.Moved related) records records') :
    List.Forall₂ (Located.Moved related) (context.image records).words
        (context.image records').words ∧
      List.Forall₂ (Diagnostic.Moved related) (context.image records).diagnostics
        (context.image records').diagnostics := by
  induction h with
  | nil => exact ⟨.nil, .nil⟩
  | @cons record record' rest rest' hmoved _ ih =>
    obtain ⟨hwords, hdiagnostics⟩ := ih
    obtain ⟨hrelated, hrecord⟩ := hmoved
    obtain ⟨line, address, content⟩ := record
    obtain ⟨line', address', content'⟩ := record'
    cases hrecord
    rw [image, image]
    dsimp only
    rcases context.encode content with fault | _ | word
    · exact ⟨hwords, .cons ⟨hrelated, rfl⟩ hdiagnostics⟩
    · exact ⟨hwords, hdiagnostics⟩
    · exact ⟨.cons ⟨hrelated, rfl⟩ hwords, hdiagnostics⟩

/-! ### Whole programs -/

/-- What is reported of the lines of a program. -/
def readDiagnostics (text : String) : List Diagnostic :=
  (Scan.run 1 (programLines text) ⟨.opening, {}⟩).1.diagnostics

/-- What is reported at the end of a program: that it has no END, and then that there is no room for
the literals that wait. -/
def closingDiagnostics (text : String) : List Diagnostic :=
  (closingTrace (programLines text) {}).diagnostics

/-- What is reported of the records of a program. -/
def encodingDiagnostics (text : String) : List Diagnostic :=
  ((assemble text).context.image (assemble text).records).diagnostics

/-- What programs with the same words have in common. -/
structure Relined (text text' : String) : Prop where
  context : (assemble text').context = (assemble text).context
  records : List.Forall₂ (Located.Moved (Corresponds text text')) (assemble text).records
    (assemble text').records
  words : List.Forall₂ (Located.Moved (Corresponds text text')) (assemble text).words
    (assemble text').words
  report : (assemble text).diagnostics =
    readDiagnostics text ++ closingDiagnostics text ++ encodingDiagnostics text
  report' : (assemble text').diagnostics =
    readDiagnostics text' ++ closingDiagnostics text' ++ encodingDiagnostics text'
  read : List.Forall₂ (Diagnostic.Moved (Corresponds text text')) (readDiagnostics text)
    (readDiagnostics text')
  encoding : List.Forall₂ (Diagnostic.Moved (Corresponds text text')) (encodingDiagnostics text)
    (encodingDiagnostics text')
  /-- The end of a program is reported on the last of its lines. -/
  closes : (closingTrace (programLines text) {}).Closes (programLines text)
  closing : closingDiagnostics text' =
    (closingDiagnostics text).map (Diagnostic.onLine (programLines text').length)

private theorem tokens_eq_words (text : List Char) : Text.tokens text = Text.words text :=
  Text.tokens_eq text

/-- What has the same words reads the same. -/
private theorem SameWords.forall₂_ofText {text text' : String} (h : SameWords text text') :
    List.Forall₂ (fun line line' => SourceLine.ofText line'.1 = SourceLine.ofText line.1)
      (writtenLines 1 (programLines text)) (writtenLines 1 (programLines text')) := by
  rw [SameWords, ← List.forall₂_eq_eq_eq, List.forall₂_map_left_iff,
    List.forall₂_map_right_iff] at h
  refine h.imp fun line line' hwords => ?_
  rw [SourceLine.ofText_eq, SourceLine.ofText_eq, tokens_eq_words, tokens_eq_words, hwords]

private theorem isBlankText_of_mem_writtenLines {number : Nat} {lines : List String}
    {line : String × Nat} (h : line ∈ writtenLines number lines) :
    Text.isBlankText line.1.toList = false := by
  simpa using (List.mem_filter.mp h).2

/-- Reading programs with the same words comes to the same, on lines that correspond. -/
theorem SameWords.run {text text' : String} (h : SameWords text text') :
    programScan text' = programScan text ∧
      Trace.Moved (Corresponds text text') (Scan.run 1 (programLines text) ⟨.opening, {}⟩).1
        (Scan.run 1 (programLines text') ⟨.opening, {}⟩).1 := by
  rw [programScan, programScan, Scan.run_eq_handle_written, Scan.run_eq_handle_written]
  exact Scan.handle_moved h.forall₂_ofText (fun line => isBlankText_of_mem_writtenLines)
    (fun line => isBlankText_of_mem_writtenLines) ⟨.opening, {}⟩

private theorem closingDiagnostics_eq (text : String) :
    closingDiagnostics text =
      ((programScan text).finish (programLines text).length).1.diagnostics := by
  have hphase : (Scan.mk .opening {}).phase ≠ .ended := by simp
  rw [programScan, Scan.run_eq_handle hphase]
  rfl

/-- A report has three parts: of the lines, at the end, and of the records. -/
theorem assemble_diagnostics_eq (text : String) :
    (assemble text).diagnostics =
      readDiagnostics text ++ closingDiagnostics text ++ encodingDiagnostics text := by
  rw [closingDiagnostics_eq]
  rfl

theorem relined_of_sameWords {text text' : String} (h : SameWords text text') :
    Relined text text' := by
  obtain ⟨hscan, hmoved⟩ := h.run
  have hfinish := Scan.finish_onLine (programLines text).length (programLines text').length
    (programScan text)
  have hcontext : (assemble text').context = (assemble text).context := by
    rw [assemble_context, assemble_context, hscan, hfinish]
  have hrecords : List.Forall₂ (Located.Moved (Corresponds text text')) (assemble text).records
      (assemble text').records := by
    rw [assemble_records, assemble_records]
    exact hmoved.records
  obtain ⟨hwords, hencoded⟩ := (assemble text).context.image_moved hrecords
  refine ⟨hcontext, hrecords, ?_, assemble_diagnostics_eq text, assemble_diagnostics_eq text',
    hmoved.diagnostics, ?_, closes_closingTrace _ _, ?_⟩
  · change List.Forall₂ _ _ ((assemble text').context.image (assemble text').records).words
    rw [hcontext]
    exact hwords
  · rw [encodingDiagnostics, encodingDiagnostics, hcontext]
    exact hencoded
  · rw [closingDiagnostics_eq, closingDiagnostics_eq, hscan, hfinish]
    rfl

/-! ### Lines at the same places -/

section

variable {related : Nat → Nat → Prop} (hsame : ∀ number number', related number number' →
  number' = number)

include hsame

private theorem eq_of_forall₂_located {α : Type} {items items' : List (Located α)}
    (h : List.Forall₂ (Located.Moved related) items items') : items' = items := by
  induction h with
  | nil => rfl
  | cons hmoved _ ih =>
    obtain ⟨hrelated, hitem⟩ := hmoved
    rw [hitem, ih, hsame _ _ hrelated]
    rfl

private theorem eq_of_forall₂_diagnostic {diagnostics diagnostics' : List Diagnostic}
    (h : List.Forall₂ (Diagnostic.Moved related) diagnostics diagnostics') :
    diagnostics' = diagnostics := by
  induction h with
  | nil => rfl
  | cons hmoved _ ih =>
    obtain ⟨hrelated, hdiagnostic⟩ := hmoved
    rw [hdiagnostic, ih, hsame _ _ hrelated]
    rfl

end

/-- Lines at the same places have the same numbers. -/
private theorem eq_of_corresponds {text text' : String}
    (hnumbers : lineNumbers text' = lineNumbers text)
    {number number' : Nat} (h : Corresponds text text' number number') : number' = number := by
  rw [Corresponds, hnumbers, List.zip, List.zipWith_self] at h
  obtain ⟨other, -, hother⟩ := List.mem_map.mp h
  obtain ⟨rfl, rfl⟩ := Prod.mk.inj hother
  rfl

private theorem Assembly.eq_of_parts {first second : Assembly}
    (hcontext : first.context = second.context)
    (hrecords : first.records = second.records) (hwords : first.words = second.words)
    (hdiagnostics : first.diagnostics = second.diagnostics) : first = second := by
  obtain ⟨context, records, words, diagnostics⟩ := first
  cases hcontext
  cases hrecords
  cases hwords
  cases hdiagnostics
  rfl

/-- Where the same lines are blank programs with the same words assemble to the same. -/
theorem Relined.assemble_eq {text text' : String} (h : Relined text text')
    (hnumbers : lineNumbers text' = lineNumbers text)
    (hcount : (programLines text').length = (programLines text).length) :
    assemble text' = assemble text := by
  have hsame : ∀ number number', Corresponds text text' number number' → number' = number :=
    fun _ _ => eq_of_corresponds hnumbers
  have hrecords := eq_of_forall₂_located hsame h.records
  have hwords := eq_of_forall₂_located hsame h.words
  have hclosing : closingDiagnostics text' = closingDiagnostics text := by
    rw [h.closing, hcount]
    refine (List.map_congr_left fun diagnostic hmem => ?_).trans (List.map_id _)
    rw [Diagnostic.onLine, ← h.closes.line_eq hmem]
    rfl
  have hdiagnostics : (assemble text').diagnostics = (assemble text).diagnostics := by
    rw [h.report, h.report', hclosing, eq_of_forall₂_diagnostic hsame h.read,
      eq_of_forall₂_diagnostic hsame h.encoding]
  exact Assembly.eq_of_parts h.context hrecords hwords hdiagnostics

/-! ### Line ends -/

/-- A text with a carriage return in front of every line feed. -/
def Text.withReturns (text : List Char) : List Char :=
  text.flatMap fun c => if c = '\n' then ['\r', '\n'] else [c]

/-- The text of a program with a carriage return in front of every line feed. -/
def withReturns (text : String) : String :=
  String.ofList (Text.withReturns text.toList)

private theorem Text.withReturns_of_not_mem {text : List Char} (h : '\n' ∉ text) :
    withReturns text = text := by
  induction text with
  | nil => rfl
  | cons c rest ih =>
    rw [List.mem_cons, not_or] at h
    rw [withReturns, List.flatMap_cons, if_neg (Ne.symm h.1)]
    exact congrArg (c :: ·) (ih h.2)

/-- The line before a line feed gets a carriage return at its end. -/
private theorem Text.withReturns_append {row : List Char} (h : '\n' ∉ row) (rest : List Char) :
    withReturns (row ++ '\n' :: rest) = row ++ ['\r'] ++ '\n' :: withReturns rest := by
  have hrow := withReturns_of_not_mem h
  rw [withReturns] at hrow ⊢
  rw [List.flatMap_append, hrow, List.flatMap_cons, if_pos rfl, List.append_assoc]
  rfl

/-- A line without the carriage return at its end has the same words and is not blank either. -/
def Text.SameLine (line line' : List Char) : Prop :=
  words line' = words line ∧ isBlankText line' = isBlankText line

private theorem Text.sameLine_dropReturn (line : List Char) : SameLine (dropReturn line) line := by
  rw [SameLine, ← tokens_eq_words, ← tokens_eq_words, tokens_dropReturn, isBlankText_dropReturn]
  exact ⟨rfl, rfl⟩

/-- The carriage return that a line gets belongs to its end. -/
private theorem Text.dropReturn_concat (line : List Char) : dropReturn (line ++ ['\r']) = line := by
  rw [dropReturn, List.getLast?_concat, if_pos rfl, List.dropLast_concat]

/-- The lines of a text with carriage returns are the same, one by one. -/
theorem Text.forall₂_lines_withReturns (text : List Char) :
    List.Forall₂ SameLine (lines text) (lines (withReturns text)) := by
  by_cases hfeed : '\n' ∈ text
  · obtain ⟨row, rest, rfl, hrow⟩ := List.eq_append_cons_of_mem hfeed
    have hrow' : '\n' ∉ row ++ ['\r'] := by simpa using hrow
    rw [withReturns_append hrow, lines_append hrow, lines_append hrow', dropReturn_concat]
    exact .cons (sameLine_dropReturn row) (forall₂_lines_withReturns rest)
  · rw [withReturns_of_not_mem hfeed, List.forall₂_same]
    exact fun _ _ => ⟨rfl, rfl⟩
termination_by text.length

private theorem writtenLines_of_sameLine {lines lines' : List String}
    (h : List.Forall₂ (fun line line' => Text.SameLine line.toList line'.toList) lines lines')
    (number : Nat) :
    (writtenLines number lines').map (fun line => (Text.words line.1.toList, line.2)) =
      (writtenLines number lines).map fun line => (Text.words line.1.toList, line.2) := by
  induction h generalizing number with
  | nil => rfl
  | @cons line line' rest rest' hline _ ih =>
    obtain ⟨hwords, hblank⟩ := hline
    by_cases hline : Text.isBlankText line.toList = true
    · rw [writtenLines_cons_of_blank hline, writtenLines_cons_of_blank (hblank.trans hline)]
      exact ih (number + 1)
    · have hwritten : Text.isBlankText line.toList = false := by simpa using hline
      rw [writtenLines_cons hwritten, writtenLines_cons (hblank.trans hwritten), List.map_cons,
        List.map_cons, ih (number + 1), hwords]

/-- Where the lines of two programs are the same one by one they have the same words in the same
places. -/
private theorem sameWords_of_forall₂ {text text' : String}
    (h : List.Forall₂ Text.SameLine (Text.lines text.toList) (Text.lines text'.toList)) :
    SameWords text text' ∧ lineNumbers text' = lineNumbers text ∧
      (programLines text').length = (programLines text).length := by
  have hlines : List.Forall₂ (fun line line' => Text.SameLine line.toList line'.toList)
      (programLines text) (programLines text') := by
    rw [programLines, programLines, List.forall₂_map_left_iff, List.forall₂_map_right_iff]
    simpa only [String.toList_ofList] using h
  have hwritten := writtenLines_of_sameLine hlines 1
  refine ⟨?_, ?_, hlines.length_eq.symm⟩
  · have hfirst := congrArg (List.map Prod.fst) hwritten
    rw [List.map_map, List.map_map] at hfirst
    exact hfirst.symm
  · have hsecond := congrArg (List.map Prod.snd) hwritten
    rw [List.map_map, List.map_map] at hsecond
    exact hsecond

/-- How the lines of a program end does not matter. -/
private theorem assemble_withReturns (text : String) :
    assemble (withReturns text) = assemble text := by
  have hlines := Text.forall₂_lines_withReturns text.toList
  rw [← String.toList_ofList (l := Text.withReturns text.toList)] at hlines
  obtain ⟨hwords, hnumbers, hcount⟩ := sameWords_of_forall₂ hlines
  exact (relined_of_sameWords hwords).assemble_eq hnumbers hcount

/-- The layout of a program does not matter but for the numbers of its lines, and not at all where
its lines are at the same places. -/
theorem layout_irrelevant {text text' : String} (h : SameWords text text') :
    Relined text text' ∧
      (lineNumbers text' = lineNumbers text →
        (programLines text').length = (programLines text).length →
          assemble text' = assemble text) ∧
      assemble (withReturns text) = assemble text :=
  ⟨relined_of_sameWords h, (relined_of_sameWords h).assemble_eq, assemble_withReturns text⟩

/-- A program without END. -/
def narrowProgram : String :=
  " START 5\nA MOVER AREG, ='1'\n LTORG\n STOP A"

/-- The same words with other separators on the same lines. -/
def spacedProgram : String :=
  "\tSTART,, 5\r\nA MOVER\u3000AREG ='1'\n,LTORG \n STOP\u2003A"

/-- The same words on other lines. -/
def wideProgram : String :=
  "\n \t\nSTART 5\r\n\nA,MOVER,AREG,='1',\n LTORG\r\r\n\n,STOP A \n\n"

/-- Words with other separators, on the same and on other lines. -/
theorem layout_irrelevant_narrowProgram :
    SameWords narrowProgram spacedProgram ∧ assemble spacedProgram = assemble narrowProgram ∧
      assemble (withReturns narrowProgram) = assemble narrowProgram ∧
      SameWords narrowProgram wideProgram ∧ Relined narrowProgram wideProgram ∧
      lineNumbers narrowProgram = [1, 2, 3, 4] ∧ lineNumbers wideProgram = [3, 5, 6, 8] := by
  have hspaced : SameWords narrowProgram spacedProgram := by decide +kernel
  have hwide : SameWords narrowProgram wideProgram := by decide +kernel
  obtain ⟨-, hsame, hreturns⟩ := layout_irrelevant hspaced
  obtain ⟨hrelined, -, -⟩ := layout_irrelevant hwide
  exact ⟨hspaced, hsame (by decide +kernel) (by decide +kernel), hreturns, hwide, hrelined,
    by decide +kernel, by decide +kernel⟩

end Assembler
