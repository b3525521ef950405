import Assembler.Proofs.Assembly.Blame
import Assembler.Proofs.Assembly.Replay
import Assembler.Proofs.Source.Statement
import Mathlib.Data.Option.Basic

/-!
# The frame of a program

A program stands between a START and an END.  Inside it no line leaves a START record, and an END
record is left by an END.  The lack of a START or of an END is not the fault of any statement: what
a line is blamed for is always something else, in whatever context it is executed.

## Main definitions

* `Record.isStart` : the record of a START.
* `Fault.stops` : faults that a line can be blamed for.
* `Fault.missesFrame` : the lack of a START or an END.
* `Trace.frameless` : the diagnostics that note it.

## Main results

* `Context.stops_of_execute` : no line is blamed for the lack of a START or an END, nor for another
  binding of its label.
* `Trace.frameless_ofLine` : what a line notes about the frame of its program.
-/

namespace Assembler

/-! ### START and END records -/

section

variable {line : String}

/-- A blank line holds no directive. -/
theorem isDirectiveLine_of_blank {word : Directive} (h : Text.isBlankText line.toList = true) :
    isDirectiveLine word line = false := by
  rw [isDirectiveLine, SourceLine.ofText_of_isBlankText h]

theorem isDirectiveLine_start_of_ofText (h : ∀ label operands,
    SourceLine.ofText line ≠ .ok (.statement ⟨label, .directive .start, operands⟩)) :
    isDirectiveLine .start line = false := by
  rw [isDirectiveLine]
  split
  · rename_i statement hread
    refine beq_eq_false_iff_ne.mpr fun hstart => h statement.label statement.operands ?_
    rw [hread, ← hstart]
  · rfl

end

/-- Whether a record is that of a START. -/
def Record.isStart : Record → Bool
  | directive word _ => word == .start
  | _ => false

namespace Context

/-- No record of a source line is that of a START. -/
theorem Executed.isStart_eq_false {context : Context} {source : Except Fault SourceLine}
    {effect : Effect} (h : context.Executed source effect) {record : Record}
    (hresult : effect.result = .ok (some record)) : record.isStart = false := by
  cases h with
  | unread => cases hresult
  | literal => cases hresult
  | @performed statement after result _ hperformed =>
    cases result with
    | error fault => cases hresult
    | ok other =>
      cases hresult
      cases hperformed with
      | instruction => rfl
      | constant => rfl
      | storage => rfl
      | origin => rfl
      | @placed word _ _ _ hplacing =>
        cases word with
        | start => cases hplacing
        | _ => rfl
  | incomplete => cases hresult
  | valueless => cases hresult
  | equated =>
    cases hresult
    rfl

/-- The record of an END is left by one. -/
theorem Executed.finish_of_isEnd {context : Context} {line : String} {effect : Effect}
    (h : context.Executed (SourceLine.ofText line) effect) {record : Record}
    (hresult : effect.result = .ok (some record)) (hend : record.isEnd = true) :
    isDirectiveLine .finish line = true := by
  rw [isDirectiveLine]
  generalize SourceLine.ofText line = source at h ⊢
  cases h with
  | unread => cases hresult
  | literal => cases hresult
  | @performed statement after result _ hperformed =>
    cases result with
    | error fault => cases hresult
    | ok other =>
      cases hresult
      cases hperformed with
      | instruction => cases hend
      | constant => cases hend
      | storage => cases hend
      | origin => cases hend
      | placed hmnemonic =>
        dsimp only
        rw [hmnemonic, beq_iff_eq.mp hend]
        exact beq_self_eq_true _
  | incomplete => cases hresult
  | valueless => cases hresult
  | equated =>
    cases hresult
    cases hend

end Context

/-! ### Faults that stop a line -/

/-- Whether a fault is one that a line can be blamed for.  Another binding of a name and the lack of
a START or an END keep no line from being executed. -/
def Fault.stops : Fault → Bool
  | redefinition _ _ => false
  | missingStart => false
  | missingEnd => false
  | _ => true

/-! ### The lack of a START or an END -/

/-- Whether a fault is that a program has no START or no END. -/
def Fault.missesFrame : Fault → Bool
  | missingStart => true
  | missingEnd => true
  | _ => false

/-- The diagnostics of a trace that note the lack of a START or an END. -/
def Trace.frameless (trace : Trace) : List Diagnostic :=
  trace.diagnostics.filter (·.fault.missesFrame)

theorem Trace.frameless_append (earlier later : Trace) :
    (earlier.append later).frameless = earlier.frameless ++ later.frameless :=
  List.filter_append ..

section

variable {fault : Fault}

theorem Fault.missesFrame_of_stops (h : fault.stops = true) : fault.missesFrame = false := by
  cases fault with
  | missingStart => cases h
  | missingEnd => cases h
  | _ => rfl

/-- A line that cannot be read has a fault of its own. -/
private theorem SourceLine.stops_of_ofText {line : String} (h : ofText line = .error fault) :
    fault.stops = true := by
  cases unread_of_ofText h <;> rfl

theorem Statement.Blamed.stops {statement : Statement} (h : statement.Blamed fault) :
    fault.stops = true := by
  cases h with
  | operands hfault => cases hfault <;> rfl
  | _ => rfl

/-- A START whose operand cannot be used is not missing. -/
theorem stops_of_startAddress {operands : Operands}
    (h : fault ∈ (startAddress operands).1) : fault.stops = true := by
  rw [startAddress] at h
  split at h
  · cases h
  · split at h
    · cases h
    · rw [List.mem_singleton.mp h]
      rfl

namespace Context

/-- A line that fails has a fault of its own. -/
theorem stops_of_execute {context : Context} {line : String}
    (h : (context.execute (SourceLine.ofText line)).result = .error fault) :
    fault.stops = true := by
  cases hread : SourceLine.ofText line with
  | error unread =>
    rw [hread] at h
    cases h
    exact SourceLine.stops_of_ofText hread
  | ok source =>
    rw [hread] at h
    cases source with
    | literal text => cases h
    | statement statement => exact (blamed_of_executeStatement h).stops

/-- Binding a label warns of nothing but another binding. -/
theorem missesFrame_of_bindLabel {context : Context} (label? : Option String) (address : Nat)
    (h : fault ∈ (context.bindLabel label? address).1) : fault.missesFrame = false := by
  cases label? with
  | none => cases h
  | some label =>
    obtain ⟨previous, -, rfl⟩ := Option.mem_map.mp (Option.mem_toList.mp h)
    rfl

/-- The warnings of a source line are those of binding its label. -/
theorem Executed.missesFrame {context : Context} {source : Except Fault SourceLine}
    {effect : Effect} (h : context.Executed source effect) (hmem : fault ∈ effect.warnings) :
    fault.missesFrame = false := by
  cases h with
  | unread => cases hmem
  | literal => cases hmem
  | performed => exact missesFrame_of_bindLabel _ _ hmem
  | incomplete => cases hmem
  | valueless => cases hmem
  | @equated _ label _ value =>
    exact missesFrame_of_bindLabel (some label) value hmem

end Context

end

namespace Trace

variable {number address : Nat} {warnings : List Fault} {result : Except Fault (Option Record)}

/-- Faults of a kind that stops no line are noted of a line in its warnings only. -/
theorem filter_ofLine (picks : Fault → Bool)
    (hresult : ∀ fault, result = .error fault → picks fault = false) :
    (ofLine number address warnings result).diagnostics.filter (fun noted => picks noted.fault) =
      (warnings.filter picks).map (Diagnostic.mk number .warning) := by
  have hwarned : (warnings.map (Diagnostic.mk number .warning)).filter
      (fun noted => picks noted.fault) =
        (warnings.filter picks).map (Diagnostic.mk number .warning) := by
    rw [List.filter_map]
    rfl
  cases result with
  | ok record? => exact hwarned
  | error fault =>
    dsimp only [ofLine]
    rw [List.filter_append, hwarned, List.filter_singleton, hresult fault rfl]
    exact List.append_nil _

/-- A line whose own faults do not concern the frame of the program notes what it is told to
note. -/
theorem frameless_ofLine (noted : List Fault)
    (hwarnings : ∀ fault ∈ warnings, fault.missesFrame = false)
    (hresult : ∀ fault, result = .error fault → fault.stops = true) :
    (ofLine number address (noted ++ warnings) result).frameless =
      (noted.filter Fault.missesFrame).map (Diagnostic.mk number .warning) := by
  have hnone : warnings.filter Fault.missesFrame = [] := by
    rw [List.filter_eq_nil_iff]
    intro fault hmem
    rw [hwarnings fault hmem]
    exact Bool.false_ne_true
  rw [frameless, filter_ofLine Fault.missesFrame fun fault hfault =>
    Fault.missesFrame_of_stops (hresult fault hfault), List.filter_append, hnone, List.append_nil]

end Trace

end Assembler
