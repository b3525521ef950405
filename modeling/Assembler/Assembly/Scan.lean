import Assembler.Assembly.Effect
import Assembler.Text.Line

/-!
# The scan of a program

The lines of a program are read in order, up to the first END.  The first line that is not
blank should be a START, which sets the address of the program; a program without one begins at
0.  A program whose lines run out before an END is closed as if there were one.

The scan produces records and diagnostics, and the context in which the records can be encoded.

## Main definitions

* `Trace` : the records and diagnostics of some lines.
* `Phase`, `Scan` : how far the scan has come, and what it knows.
* `Scan.step`, `Scan.run` : one line, and lines in order.
* `scanLines`, `scanText` : a whole program.

## Main results

* `Scan.run_append` : lines are scanned one after the other, so what they leave behind depends on
  no later line.
-/

namespace Assembler

/-- What some lines of a program leave behind, in order. -/
structure Trace where
  records : List (Located Record) := []
  diagnostics : List Diagnostic := []
  deriving DecidableEq, Repr

/-- What lines leave behind, followed by what later lines do. -/
def Trace.append (earlier later : Trace) : Trace :=
  ⟨earlier.records ++ later.records, earlier.diagnostics ++ later.diagnostics⟩

theorem Trace.nil_append (trace : Trace) : Trace.append {} trace = trace :=
  rfl

theorem Trace.append_assoc (first second third : Trace) :
    (first.append second).append third = first.append (second.append third) := by
  simp only [append, List.append_assoc]

/-- The trace of a line at an address: its warnings come before the fault that stops it. -/
def Trace.ofLine (line address : Nat) (warnings : List Fault)
    (result : Except Fault (Option Record)) : Trace :=
  let warned := warnings.map (Diagnostic.mk line .warning)
  match result with
  | .error fault => ⟨[], warned ++ [⟨line, .error, fault⟩]⟩
  | .ok record => ⟨(record.map (Located.mk line address)).toList, warned⟩

/-- How far a scan has come. -/
inductive Phase
  /-- No line but blank ones has been read. -/
  | opening
  /-- The program has begun. -/
  | body
  /-- The END has been read. -/
  | ended
  deriving DecidableEq, Repr

/-- How far a scan has come, and what is known by then. -/
structure Scan where
  phase : Phase
  context : Context
  deriving DecidableEq, Repr

/-- Whether a line that was read is the END of its program. -/
def SourceLine.isEnd : SourceLine → Bool
  | literal _ => false
  | statement content => content.mnemonic == .directive .finish

/-- The operands and the label of a line that was read as a START. -/
def SourceLine.start? : SourceLine → Option (Option String × Operands)
  | literal _ => none
  | statement content =>
    if content.mnemonic = .directive .start then some (content.label, content.operands)
    else none

/-- The address that a START asks for, with the warning that an unusable one is. -/
def startAddress (operands : Operands) : List Fault × Nat :=
  match operands.first? with
  | none => ([], 0)
  | some operand =>
    match Text.readNumeral? maxAddress operand.toList with
    | some address => ([], address)
    | none => ([.badOperand (.directive .start) operand], 0)

namespace Scan

/-- The scan after a START in the first line that is not blank. -/
def openWith (line : Nat) (label : Option String) (operands : Operands) (context : Context) :
    Trace × Scan :=
  let (unusable, start) := startAddress operands
  let (rebound, opened) :=
    { context with start := start, location := start }.bindLabel label start
  (.ofLine line start (unusable ++ rebound) (.ok (some (.directive .start (some start)))),
    ⟨.body, opened⟩)

/-- The scan after a line inside the program.  An END ends it even when the literals that wait
cannot be placed. -/
def proceed (line : Nat) (warnings : List Fault) (source : Except Fault SourceLine)
    (context : Context) : Trace × Scan :=
  let effect := context.execute source
  let phase := match source with
    | .ok source => if source.isEnd then Phase.ended else Phase.body
    | .error _ => Phase.body
  (.ofLine line context.location (warnings ++ effect.warnings) effect.result,
    ⟨phase, effect.context⟩)

/-- The scan after a line that was read while no line but blank ones had been. -/
def begin (line : Nat) (source : Except Fault SourceLine) (context : Context) : Trace × Scan :=
  match source.toOption.bind SourceLine.start? with
  | some (label, operands) => openWith line label operands context
  | none => proceed line [.missingStart] source context

/-- The scan after one more line.  Blank lines and lines after the END change nothing. -/
def step (number : Nat) (line : String) (scan : Scan) : Trace × Scan :=
  if Text.isBlankText line.toList then ({}, scan)
  else
    match scan.phase with
    | .opening => begin number (SourceLine.ofText line) scan.context
    | .body => proceed number [] (SourceLine.ofText line) scan.context
    | .ended => ({}, scan)

/-- The scan after lines in order, the first of which has the number `number`. -/
def run (number : Nat) (lines : List String) (scan : Scan) : Trace × Scan :=
  match lines with
  | [] => ({}, scan)
  | line :: rest =>
    let (trace, next) := scan.step number line
    let (traces, last) := run (number + 1) rest next
    (trace.append traces, last)

/-- Lines are scanned one after the other. -/
theorem run_append (number : Nat) (first second : List String) (scan : Scan) :
    run number (first ++ second) scan =
      ((run number first scan).1.append
          (run (number + first.length) second (run number first scan).2).1,
        (run (number + first.length) second (run number first scan).2).2) := by
  induction first generalizing number scan with
  | nil => simp [run, Trace.nil_append]
  | cons line rest ih =>
    have hlength : number + (line :: rest).length = number + 1 + rest.length := by
      simp only [List.length_cons]
      omega
    simp only [List.cons_append, run, ih, hlength, Trace.append_assoc]

/-- What is left to do after the last of `count` lines. -/
def finish (count : Nat) (scan : Scan) : Trace × Context :=
  match scan.phase with
  | .ended => ({}, scan.context)
  | _ =>
    match scan.context.close with
    | .ok closed => (⟨[], [⟨count, .warning, .missingEnd⟩]⟩, closed)
    | .error fault =>
      (⟨[], [⟨count, .warning, .missingEnd⟩, ⟨count, .error, fault⟩]⟩, scan.context)

end Scan

/-- Reads the lines of a program, numbered from 1, in a context. -/
def scanLines (lines : List String) (context : Context) : Trace × Context :=
  let (trace, scan) := Scan.run 1 lines ⟨.opening, context⟩
  let (closing, closed) := scan.finish lines.length
  (trace.append closing, closed)

/-- Reads the text of a program in a context. -/
def scanText (text : String) (context : Context) : Trace × Context :=
  scanLines ((Text.lines text.toList).map String.ofList) context

end Assembler
