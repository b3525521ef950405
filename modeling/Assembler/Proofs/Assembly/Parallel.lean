import Assembler.Proofs.Assembly.Correspondence

/-!
# Programs that are read side by side

Where two programs correspond line by line, reading the one does what reading the other does: after
every line the same is known, as far as the correspondence goes, and the records and diagnostics
that were left correspond.  If the correspondence is lenient, this holds until one of the two fails.

## Main definitions

* `Correspondence.Line` : lines of the two programs.
* `Correspondence.Traces` : what lines leave behind.
* `Correspondence.Readings`, `Correspondence.Endings` : what reading lines and programs comes to.

## Main results

* `Correspondence.Lawful.step`, `Correspondence.Lawful.run` : one line, and any lines.
* `Correspondence.Lawful.finish`, `Correspondence.Lawful.scanText` : the end of a program, and whole
  programs.
-/

namespace Assembler

namespace Correspondence

variable (K : Correspondence)

/-! ### What lines leave behind -/

/-- Records of one line that correspond in contexts. -/
structure Places (context other : Context) (record record' : Located Record) : Prop where
  line : record'.line = record.line
  address : K.Address record.address record'.address
  content : K.Leaves context other record.content record'.content

/-- Diagnostics of one line that weigh the same. -/
structure Diagnoses (diagnostic diagnostic' : Diagnostic) : Prop where
  line : diagnostic'.line = diagnostic.line
  severity : diagnostic'.severity = diagnostic.severity
  fault : K.Reports diagnostic.fault diagnostic'.fault

/-- What lines leave behind. -/
structure Traces (context other : Context) (trace trace' : Trace) : Prop where
  records : List.Forall₂ (K.Places context other) trace.records trace'.records
  diagnostics : List.Forall₂ K.Diagnoses trace.diagnostics trace'.diagnostics

/-- Something holds, unless lines have left a fault that excuses it. -/
def Unless (trace trace' : Trace) (holds : Prop) : Prop :=
  K.Lenient ∧ (trace.Failed ∨ trace'.Failed) ∨ holds

/-- Lines of the two programs: the second holds what the first does, as the second program has
it. -/
structure Line (line line' : String) : Prop where
  blank : Text.isBlankText line'.toList = Text.isBlankText line.toList
  read : SourceLine.ofText line' = (SourceLine.ofText line).map K.source

/-- Scans that have come equally far. -/
structure Scans (scan scan' : Scan) : Prop where
  phase : scan'.phase = scan.phase
  knows : K.Knows scan.context scan'.context

/-- What reading lines comes to. -/
def Readings (outcome outcome' : Trace × Scan) : Prop :=
  K.Unless outcome.1 outcome'.1 (K.Scans outcome.2 outcome'.2 ∧
    K.Traces outcome.2.context outcome'.2.context outcome.1 outcome'.1)

/-- What reading programs comes to. -/
def Endings (outcome outcome' : Trace × Context) : Prop :=
  K.Unless outcome.1 outcome'.1
    (K.Knows outcome.2 outcome'.2 ∧ K.Traces outcome.2 outcome'.2 outcome.1 outcome'.1)

/-- A program may begin at an address while the two programs correspond. -/
def Opens : Prop :=
  ∀ {context other : Context}, K.Knows context other → ∀ address, K.Address address address ∧
    K.Knows { context with start := address, location := address }
      { other with start := address, location := address }

variable {K}

section

variable {context other later later' : Context} {trace trace' rest rest' : Trace}

theorem Traces.nil : K.Traces context other {} {} :=
  ⟨.nil, .nil⟩

/-- What lines have left behind corresponds to the end. -/
theorem Traces.append (hK : K.Lawful) (h : K.Traces context other trace trace')
    (hrest : K.Traces later later' rest rest') (hgrows : context.Grows later)
    (hgrows' : other.Grows later') :
    K.Traces later later' (trace.append rest) (trace'.append rest') := by
  have hrecords : List.Forall₂ (K.Places later later') trace.records trace'.records :=
    h.records.imp fun _ _ hplaces =>
      ⟨hplaces.line, hplaces.address, hK.grows hplaces.content hgrows hgrows'⟩
  exact ⟨List.rel_append hrecords hrest.records,
    List.rel_append h.diagnostics hrest.diagnostics⟩

private theorem eq_map_of_forall₂ {α β : Type} {related : α → β → Prop} {change : α → β}
    {first : List α} {second : List β} (h : List.Forall₂ related first second)
    (hrelated : ∀ value value', related value value' → value' = change value) :
    second = first.map change := by
  have hsame : List.Forall₂ Eq (first.map change) second :=
    List.forall₂_map_left_iff.mpr (h.imp fun value value' h => (hrelated value value' h).symm)
  rw [List.forall₂_eq_eq_eq] at hsame
  exact hsame.symm

/-- The records of the second program, where they are made from those of the first. -/
theorem Traces.records_eq {move : Nat → Nat} {change : Record → Record}
    (h : K.Traces context other trace trace')
    (haddress : ∀ address address', K.Address address address' → address' = move address)
    (hcontent : ∀ record record', K.Leaves context other record record' →
      record' = change record) :
    trace'.records = trace.records.map fun record =>
      ⟨record.line, move record.address, change record.content⟩ := by
  refine eq_map_of_forall₂ h.records fun record record' hplaces => ?_
  rw [← hplaces.line, ← haddress _ _ hplaces.address, ← hcontent _ _ hplaces.content]

/-- What is reported of the second program, where it is made from what the first reports. -/
theorem Traces.diagnostics_eq {change : Fault → Fault} (h : K.Traces context other trace trace')
    (hreports : ∀ fault fault', K.Reports fault fault' → fault' = change fault) :
    trace'.diagnostics = trace.diagnostics.map fun diagnostic =>
      { diagnostic with fault := change diagnostic.fault } := by
  refine eq_map_of_forall₂ h.diagnostics fun diagnostic diagnostic' hdiagnoses => ?_
  rw [← hdiagnoses.line, ← hdiagnoses.severity, ← hreports _ _ hdiagnoses.fault]

/-- Nothing is excused where a correspondence is not lenient. -/
theorem Unless.of_strict {holds : Prop} (h : K.Unless trace trace' holds)
    (hstrict : ¬K.Lenient) : holds :=
  h.resolve_left fun hexcused => hstrict hexcused.1

/-- Nothing is excused where neither program has failed. -/
theorem Unless.of_clean {holds : Prop} (h : K.Unless trace trace' holds)
    (hclean : ¬trace.Failed) (hclean' : ¬trace'.Failed) : holds :=
  h.resolve_left fun hexcused => hexcused.2.elim hclean hclean'

/-- A fault that excuses excuses for good. -/
theorem Unless.append {holds holds' conclusion : Prop} (h : K.Unless trace trace' holds)
    (hrest : holds → K.Unless rest rest' holds') (hboth : holds → holds' → conclusion) :
    K.Unless (trace.append rest) (trace'.append rest') conclusion := by
  obtain ⟨hlenient, hfailed⟩ | hholds := h
  · exact .inl ⟨hlenient, hfailed.imp (fun h => Trace.failed_append.mpr (.inl h))
      fun h => Trace.failed_append.mpr (.inl h)⟩
  · obtain ⟨hlenient, hfailed⟩ | hholds' := hrest hholds
    · exact .inl ⟨hlenient, hfailed.imp (fun h => Trace.failed_append.mpr (.inr h))
        fun h => Trace.failed_append.mpr (.inr h)⟩
    · exact .inr (hboth hholds hholds')

/-- Lines that go on where others have ended. -/
theorem Readings.append (hK : K.Lawful) {outcome outcome' next next' : Trace × Scan}
    (h : K.Readings outcome outcome')
    (hnext : K.Scans outcome.2 outcome'.2 → K.Readings next next')
    (hgrows : outcome.2.context.Grows next.2.context)
    (hgrows' : outcome'.2.context.Grows next'.2.context) :
    K.Readings (outcome.1.append next.1, next.2) (outcome'.1.append next'.1, next'.2) :=
  Unless.append h (fun hread => hnext hread.1) fun hread hlast =>
    ⟨hlast.1, hread.2.append hK hlast.2 hgrows hgrows'⟩

private theorem forall₂_diagnoses {faults faults' : List Fault}
    (h : List.Forall₂ K.Reports faults faults') (number : Nat) (severity : Severity) :
    List.Forall₂ K.Diagnoses (faults.map (Diagnostic.mk number severity))
      (faults'.map (Diagnostic.mk number severity)) := by
  rw [List.forall₂_map_left_iff, List.forall₂_map_right_iff]
  exact h.imp fun _ _ hfault => ⟨rfl, rfl, hfault⟩

/-- The trace of a line, from what the line comes to. -/
theorem Effects.ofLine {effect effect' : Effect} (h : K.Effects effect effect')
    {address address' : Nat} (haddress : K.Address address address')
    {warnings warnings' : List Fault} (hwarnings : List.Forall₂ K.Reports warnings warnings')
    (number : Nat) :
    K.Endings
      (Trace.ofLine number address (warnings ++ effect.warnings) effect.result, effect.context)
      (Trace.ofLine number address' (warnings' ++ effect'.warnings) effect'.result,
        effect'.context) := by
  cases h with
  | done hmore hknows hrecord =>
    refine .inr ⟨hknows, ?_, forall₂_diagnoses (List.rel_append hwarnings hmore) _ _⟩
    cases hrecord with
    | none => exact .nil
    | some hrecord => exact .cons ⟨rfl, haddress, hrecord⟩ .nil
  | failed hmore hknows hfault =>
    refine .inr ⟨hknows, .nil, ?_⟩
    exact List.rel_append (forall₂_diagnoses (List.rel_append hwarnings hmore) _ _)
      (.cons ⟨rfl, rfl, hfault⟩ .nil)
  | first hlenient => exact .inl ⟨hlenient, .inl (Trace.failed_ofLine_iff.mpr ⟨_, rfl⟩)⟩
  | second hlenient => exact .inl ⟨hlenient, .inr (Trace.failed_ofLine_iff.mpr ⟨_, rfl⟩)⟩

end

/-! ### Lines -/

private theorem start?_source (source : Except Fault SourceLine) :
    (source.map K.source).toOption.bind SourceLine.start? =
      (source.toOption.bind SourceLine.start?).map fun start => (start.1.map K.label, start.2) := by
  rcases source with fault | text | ⟨label?, mnemonic, operands⟩
  · rfl
  · rfl
  · change (SourceLine.statement ⟨label?.map K.label, mnemonic, _⟩).start? =
      (SourceLine.start? (.statement ⟨label?, mnemonic, operands⟩)).map _
    rw [SourceLine.start?, SourceLine.start?]
    split_ifs with hstart
    · obtain rfl : mnemonic = .directive .start := hstart
      rfl
    · rfl

/-- Where every expression may stand every line may. -/
theorem admitsSource_of_forall (h : ∀ text, K.Admits text) (source : Except Fault SourceLine) :
    K.AdmitsSource source :=
  fun _ _ _ operand _ => h operand

private theorem isEnd_source (source : SourceLine) : (K.source source).isEnd = source.isEnd := by
  cases source <;> rfl

end Correspondence

namespace Scan

variable {scan : Scan} {number : Nat} {line : String} {lines : List String}

/-- A program that has not begun behind a line had not begun before it. -/
theorem phase_eq_opening_of_step (h : (scan.step number line).2.phase = .opening) :
    scan.phase = .opening := by
  by_contra hphase
  exact phase_step_ne_opening (.inl hphase) h

/-- While a program goes on, the lines that are handled behind a line are handled with it. -/
theorem handledLines_of_step (h : (scan.step number line).2.phase ≠ .ended) :
    scan.phase ≠ .ended ∧
      handledLines (number + 1) lines ⊆ handledLines number (line :: lines) := by
  have hphase : scan.phase ≠ .ended := by
    intro hended
    have hscan : (scan.step number line).2 = scan :=
      congrArg Prod.snd (run_of_ended hended number [line])
    rw [hscan] at h
    exact h hended
  refine ⟨hphase, ?_⟩
  cases hblank : Text.isBlankText line.toList with
  | true =>
    rw [handledLines_cons_of_blank hblank]
    exact List.Subset.refl _
  | false =>
    have hfinish : isDirectiveLine .finish line = false :=
      Bool.eq_false_of_not_eq_true fun hfinish => h (phase_step_of_finish hphase hfinish)
    rw [handledLines_cons hblank hfinish]
    exact List.subset_cons_self _ _

private theorem failed_finish_of_close_eq_error {fault : Fault} (hphase : scan.phase ≠ .ended)
    (h : scan.context.close = .error fault) (count : Nat) : (scan.finish count).1.Failed := by
  rw [finish_of_close_eq_error hphase h]
  exact ⟨_, List.mem_cons_of_mem _ List.mem_cons_self, rfl⟩

end Scan

namespace Correspondence

variable {K : Correspondence}

namespace Lawful

open Scan

variable (hK : K.Lawful) {scan scan' : Scan} {line line' : String} {lines lines' : List String}

include hK

/-- The START of a program, at addresses that correspond. -/
theorem openWith {context other : Context} {operands operands' : Operands}
    (hwarnings : List.Forall₂ K.Reports (startAddress operands).1 (startAddress operands').1)
    (haddress : K.Address (startAddress operands).2 (startAddress operands').2)
    (hopened : K.Knows
      { context with
        start := (startAddress operands).2
        location := (startAddress operands).2 }
      { other with
        start := (startAddress operands').2
        location := (startAddress operands').2 })
    (number : Nat) (label? : Option String) :
    K.Readings (Scan.openWith number label? operands context)
      (Scan.openWith number (label?.map K.label) operands' other) := by
  obtain ⟨hrebound, hbound⟩ := hK.bindLabel hopened haddress label?
  refine .inr ⟨⟨rfl, hbound⟩, ?_, forall₂_diagnoses (List.rel_append hwarnings hrebound) _ _⟩
  exact .cons ⟨rfl, haddress, hK.directive .start (.some haddress)⟩ .nil

theorem proceed {context other : Context} (h : K.Knows context other) (number : Nat)
    {warnings : List Fault} (hwarnings : ∀ fault ∈ warnings, fault.Nameless)
    (hadmits : K.AdmitsSource (SourceLine.ofText line)) :
    K.Readings (Scan.proceed number warnings (SourceLine.ofText line) context)
      (Scan.proceed number warnings ((SourceLine.ofText line).map K.source) other) := by
  have heffect := hK.execute h (fun _ hunread => nameless_ofText hunread) hadmits
  obtain hexcused | ⟨hknows, htraces⟩ :=
    heffect.ofLine (hK.location h) (hK.forall₂_nameless hwarnings) number
  · exact .inl hexcused
  · refine .inr ⟨⟨?_, hknows⟩, htraces⟩
    rcases SourceLine.ofText line with fault | source
    · rfl
    · change (if (K.source source).isEnd then Phase.ended else Phase.body) =
        if source.isEnd then Phase.ended else Phase.body
      rw [isEnd_source]

/-- One line, as both programs have it. -/
theorem step (h : K.Scans scan scan') (hopens : scan.phase = .opening → K.Opens)
    (hline : K.Line line line')
    (hadmits : Text.isBlankText line.toList = false → scan.phase ≠ .ended →
      K.AdmitsSource (SourceLine.ofText line)) (number : Nat) :
    K.Readings (scan.step number line) (scan'.step number line') := by
  rw [Scan.step, Scan.step, hline.blank, hline.read, h.phase]
  split_ifs with hblank
  · exact .inr ⟨h, .nil⟩
  · have hwritten := Bool.of_not_eq_true hblank
    cases hphase : scan.phase with
    | ended => exact .inr ⟨h, .nil⟩
    | body =>
      exact hK.proceed h.knows number (by simp) (hadmits hwritten (by simp [hphase]))
    | opening =>
      dsimp only [begin]
      rw [start?_source]
      cases hstart : (SourceLine.ofText line).toOption.bind SourceLine.start? with
      | none =>
        refine hK.proceed h.knows number ?_ (hadmits hwritten (by simp [hphase]))
        intro fault hfault f
        obtain rfl := List.mem_singleton.mp hfault
        rfl
      | some start =>
        obtain ⟨haddress, hopened⟩ := hopens hphase h.knows (startAddress start.2).2
        exact hK.openWith (hK.forall₂_nameless fun _ hfault => nameless_startAddress hfault)
          haddress hopened number start.1

/-- Any lines, as both programs have them. -/
theorem run (h : K.Scans scan scan') (hopens : scan.phase = .opening → K.Opens)
    (hlines : List.Forall₂ K.Line lines lines') (number : Nat)
    (hadmits : scan.phase ≠ .ended → ∀ handled ∈ handledLines number lines,
      K.AdmitsSource (SourceLine.ofText handled.1)) :
    K.Readings (Scan.run number lines scan) (Scan.run number lines' scan') := by
  induction hlines generalizing number scan scan' with
  | nil => exact .inr ⟨h, .nil⟩
  | @cons line line' rest rest' hline _ ih =>
    rw [run_cons, run_cons]
    have hstep := hK.step h hopens hline
      (fun hwritten hphase => hadmits hphase (line, number) (mem_handledLines hwritten)) number
    refine hstep.append hK (fun hnext => ih hnext ?_ (number + 1) ?_) (grows_run _ _ _)
      (grows_run _ _ _)
    · exact fun hopening => hopens (phase_eq_opening_of_step hopening)
    · intro hphase handled hhandled
      obtain ⟨hgoes, hrest⟩ := handledLines_of_step hphase
      exact hadmits hgoes handled (hrest hhandled)

/-- The end of a program, behind any number of lines. -/
theorem finish (h : K.Scans scan scan') (count : Nat) :
    K.Endings (scan.finish count) (scan'.finish count) := by
  have hmissing : K.Diagnoses ⟨count, .warning, .missingEnd⟩ ⟨count, .warning, .missingEnd⟩ :=
    ⟨rfl, rfl, hK.nameless fun f => rfl⟩
  by_cases hphase : scan.phase = .ended
  · rw [Scan.finish, Scan.finish, h.phase, hphase]
    exact .inr ⟨h.knows, .nil⟩
  · have hphase' : scan'.phase ≠ .ended := by rwa [h.phase]
    have hclose := hK.close h.knows
    generalize hfirst : scan.context.close = result at hclose
    generalize hsecond : scan'.context.close = result' at hclose
    cases hclose with
    | ok hclosed =>
      rw [finish_of_close_eq_ok hphase hfirst, finish_of_close_eq_ok hphase' hsecond]
      exact .inr ⟨hclosed, .nil, .cons hmissing .nil⟩
    | error hfault =>
      rw [finish_of_close_eq_error hphase hfirst, finish_of_close_eq_error hphase' hsecond]
      exact .inr ⟨h.knows, .nil, .cons hmissing (.cons ⟨rfl, rfl, hfault⟩ .nil)⟩
    | first hlenient =>
      exact .inl ⟨hlenient, .inl (failed_finish_of_close_eq_error hphase hfirst count)⟩
    | second hlenient =>
      exact .inl ⟨hlenient, .inr (failed_finish_of_close_eq_error hphase' hsecond count)⟩

/-- Programs that have been read alike end alike. -/
theorem scanLines {context other : Context}
    (h : K.Readings (Scan.run 1 lines ⟨.opening, context⟩) (Scan.run 1 lines' ⟨.opening, other⟩))
    (hlength : lines'.length = lines.length) :
    K.Endings (Assembler.scanLines lines context) (Assembler.scanLines lines' other) := by
  rw [Assembler.scanLines, Assembler.scanLines, hlength]
  exact Unless.append h (fun hread => hK.finish hread.1 lines.length) fun hread hended =>
    ⟨hended.1, hread.2.append hK hended.2 (grows_finish _ _) (grows_finish _ _)⟩

/-- Whole programs whose lines correspond. -/
theorem scanText {text text' : String} (hknows : K.Knows {} {}) (hopens : K.Opens)
    (hlines : List.Forall₂ K.Line (programLines text) (programLines text'))
    (hadmits : ∀ handled ∈ handledLines 1 (programLines text),
      K.AdmitsSource (SourceLine.ofText handled.1)) :
    K.Endings (Assembler.scanText text {}) (Assembler.scanText text' {}) :=
  hK.scanLines (hK.run ⟨rfl, hknows⟩ (fun _ => hopens) hlines 1 fun _ => hadmits)
    hlines.length_eq.symm

end Lawful

end Correspondence

end Assembler
