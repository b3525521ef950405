import Assembler.Proofs.Assembly.Citation
import Assembler.Proofs.Assembly.Success
import Assembler.Proofs.Command.Containment

/-!
# Runs that write all their outputs

Where the source file can be read and the outputs can be written, a run of the command comes to what
assembling the text of the source file comes to.  The outputs hold the two listings and the dump,
the diagnostics are reported one to a line, and the run succeeds exactly when the program has
machine code, or, if it is strict, when there is nothing to report at all.

The two switches decide nothing else: one is about success and the last line of the report, the
other about what is printed.

## Main definitions

* `Options.reportLines` : the lines in which a run reports on its source.
* `Agrees` : what a run has in common with assembling its source.

## Main results

* `Options.run_eq` : a run that writes all its outputs.
* `agrees_run` : such a run agrees with assembling its source.
-/

namespace Assembler

/-- A program with machine code is one without errors. -/
private theorem exists_code_iff {text : String} : (∃ code, assembleProgram text = .ok code) ↔
    (assemble text).hasErrors = false := by
  constructor
  · rintro ⟨code, hcode⟩
    exact (assembleProgram_eq_ok_iff.mp hcode).1
  · exact fun hclean => ⟨_, assembleProgram_eq_ok_iff.mpr ⟨hclean, rfl⟩⟩

/-- Without diagnostics there are no errors. -/
private theorem Assembly.hasErrors_of_diagnostics_eq_nil {assembly : Assembly}
    (h : assembly.diagnostics = []) : assembly.hasErrors = false := by
  rw [Assembly.hasErrors, h]
  rfl

end Assembler

namespace Assembler.Command

/-- The lines in which a run reports on an assembly: one for each diagnostic and then, if the status
is that of a failure, one that counts them. -/
def Options.reportLines (options : Options) (assembly : Assembly) (status : Nat) : List String :=
  (assembly.diagnostics.map fun diagnostic => options.input ++ ": " ++ diagnostic.text) ++
    if status = 0 then []
    else ["Error: " ++
      (options.input ++ ": " ++ assembly.diagnostics.length.repr ++ " diagnostic(s)")]

/-- What a run with arguments that ask for options has in common with assembling a text. -/
structure Agrees (arguments : List String) (options : Options) (storage : Storage)
    (text : String) : Prop where
  machineCode : (run arguments storage).2.read (options.outputBase ++ ".mc") =
    .ok (assemble text).machineCode
  intermediateCode : (run arguments storage).2.read (options.outputBase ++ ".ic") =
    .ok (assemble text).intermediateCode
  dump : (run arguments storage).2.read (options.outputBase ++ ".sdb") =
    .ok ((assemble text).dump (Path.stemOf options.outputBase)).text
  errors : (run arguments storage).1.errors =
    Text.ofLines (options.reportLines (assemble text) (run arguments storage).1.status)
  /-- No diagnostic takes up more than its line. -/
  unbroken : '\n' ∉ options.input.toList →
    ∀ line ∈ options.reportLines (assemble text) (run arguments storage).1.status,
      '\n' ∉ line.toList
  succeeds : options.strict = false →
    ((run arguments storage).1.status = 0 ↔ ∃ code, assembleProgram text = .ok code)
  code : ∀ code, assembleProgram text = .ok code →
    (run arguments storage).2.read (options.outputBase ++ ".mc") = .ok code
  strict : options.strict = true →
    ((run arguments storage).1.status = 0 ↔ (assemble text).diagnostics = [])
  output : (run arguments storage).1.output =
    if options.tables then tablesText (assemble text).context else ""
  /-- Other switches leave the same files behind. -/
  switches : ∀ others switched, Request.ofArguments others = .assemble switched →
    switched.input = options.input → switched.output = options.output →
      (run others storage).2 = (run arguments storage).2
  /-- A run that is strict succeeds less often than one that is not. -/
  lenient : ∀ others switched, Request.ofArguments others = .assemble switched →
    switched.input = options.input → switched.output = options.output →
      options.strict = true → (run arguments storage).1.status = 0 →
        (run others storage).1.status = 0

variable {arguments : List String} {storage : Storage} {options switched : Options} {text : String}

namespace Options

/-- A run that can read its source and write its outputs does what it planned to. -/
theorem run_eq (hread : storage.read options.input = .ok text)
    (hwrite : storage.Accepts (options.outputs (assemble text))) :
    options.run storage = ((options.plan text).outcome,
      (writeAll storage (options.outputs (assemble text))).2) := by
  have hall : writeAll storage (options.plan text).outputs =
      (none, (writeAll storage (options.outputs (assemble text))).2) :=
    Prod.ext (Storage.writeAll_of_accepts hwrite) rfl
  rw [run, hread]
  dsimp only
  rw [hall]

/-- The names of the outputs depend on no switch. -/
private theorem outputs_eq (hinput : switched.input = options.input)
    (houtput : switched.output = options.output) (assembly : Assembly) :
    switched.outputs assembly = options.outputs assembly := by
  rw [outputs, outputs, outputBase, outputBase, hinput, houtput]

private theorem status_outcome_eq_zero_iff :
    (options.plan text).outcome.status = 0 ↔ options.fails (assemble text) = false := by
  rw [Plan.outcome, plan]
  cases options.fails (assemble text) <;> simp

private theorem output_outcome : (options.plan text).outcome.output =
    if options.tables then tablesText (assemble text).context else "" := by
  rw [Plan.outcome, plan]
  cases options.fails (assemble text) <;> rfl

private theorem errors_outcome : (options.plan text).outcome.errors =
    Text.ofLines (options.reportLines (assemble text) (options.plan text).outcome.status) := by
  rw [Plan.outcome, plan, reportLines]
  cases options.fails (assemble text) with
  | false => simp
  | true => simp [Text.ofLines, failureText]

/-- What is reported on a program stays within its line. -/
theorem unbroken_reportLines (hinput : '\n' ∉ options.input.toList) (text : String)
    (status : Nat) :
    ∀ line ∈ options.reportLines (assemble text) status, '\n' ∉ line.toList := by
  have hlabel : Text.IsUnbroken (options.input ++ ": ") :=
    Text.IsUnbroken.append hinput (by decide)
  intro line hmem
  rw [reportLines, List.mem_append] at hmem
  rcases hmem with hreport | hfailure
  · obtain ⟨diagnostic, hdiagnostic, rfl⟩ := List.mem_map.mp hreport
    exact hlabel.append (not_mem_text_of_mem_assemble hdiagnostic)
  · split_ifs at hfailure
    · cases hfailure
    · rw [List.mem_singleton.mp hfailure]
      exact Text.IsUnbroken.append (by decide)
        ((Text.isUnbroken_repr _).between hlabel (by decide))

/-- A strict run fails whenever it would fail otherwise. -/
private theorem fails_of_strict (hstrict : options.strict = true)
    (h : options.fails (assemble text) = false) : switched.fails (assemble text) = false := by
  rw [fails, if_pos hstrict, Bool.not_eq_false', List.isEmpty_iff] at h
  rw [fails, h, Assembly.hasErrors_of_diagnostics_eq_nil h]
  exact ite_self _

end Options

/-- A run that can read its source and write its outputs agrees with assembling the source. -/
theorem agrees_run (haccepted : Request.ofArguments arguments = .assemble options)
    (hread : storage.read options.input = .ok text)
    (hwrite : storage.Accepts (options.outputs (assemble text))) :
    Agrees arguments options storage text := by
  have hrun : run arguments storage = ((options.plan text).outcome,
      (writeAll storage (options.outputs (assemble text))).2) := by
    rw [run_of_assemble haccepted, Options.run_eq hread hwrite]
  have hothers : ∀ {others switched}, Request.ofArguments others = .assemble switched →
      switched.input = options.input → switched.output = options.output →
        run others storage = ((switched.plan text).outcome,
          (writeAll storage (options.outputs (assemble text))).2) := by
    intro others switched hothers hinput houtput
    have houtputs := Options.outputs_eq hinput houtput (assemble text)
    rw [run_of_assemble hothers, Options.run_eq (by rw [hinput, hread]) (by rwa [houtputs]),
      houtputs]
  have hfiles : ∀ output ∈ options.outputs (assemble text),
      (run arguments storage).2.read output.1 = .ok output.2 := by
    intro output hmem
    rw [hrun]
    exact Storage.read_writeAll hwrite (options.pairwise_outputs (assemble text) storage) hmem
  have hstatus : (run arguments storage).1.status = 0 ↔ options.fails (assemble text) = false := by
    rw [hrun]
    exact Options.status_outcome_eq_zero_iff
  exact
    { machineCode := hfiles _ List.mem_cons_self
      intermediateCode := hfiles _ (List.mem_cons_of_mem _ List.mem_cons_self)
      dump := hfiles _ (List.mem_cons_of_mem _ (List.mem_cons_of_mem _ List.mem_cons_self))
      errors := by
        rw [hrun]
        exact Options.errors_outcome
      unbroken := fun hinput => Options.unbroken_reportLines hinput text _
      succeeds := by
        intro hlenient
        rw [hstatus, Options.fails, hlenient, exists_code_iff]
        rfl
      code := by
        intro code hcode
        rw [← (assembleProgram_eq_ok_iff.mp hcode).2]
        exact hfiles _ List.mem_cons_self
      strict := by
        intro hstrict
        rw [hstatus, Options.fails, if_pos hstrict, Bool.not_eq_false', List.isEmpty_iff]
      output := by
        rw [hrun]
        exact Options.output_outcome
      switches := by
        intro others switched hswitched hinput houtput
        rw [hothers hswitched hinput houtput, hrun]
      lenient := by
        intro others switched hswitched hinput houtput hstrict hzero
        rw [hothers hswitched hinput houtput]
        exact Options.status_outcome_eq_zero_iff.mpr
          (Options.fails_of_strict hstrict (hstatus.mp hzero)) }

/-- A program that reads a number, as the text of a source file. -/
def readingProgram : String := "START 100\nREAD N\nSTOP\nN DS 1\nEND\n"

/-- A working folder in which only the source file lies. -/
def readingFolder : Storage := { files := [(["prog.asm".toList], readingProgram.toUTF8)] }

/-- A strict run on a program agrees with assembling it. -/
theorem agrees_readingFolder :
    Agrees ["--strict", "prog.asm"] ⟨"prog.asm", none, false, true⟩ readingFolder readingProgram :=
  agrees_run (by decide)
    (Storage.read_eq_ok_iff.mpr ⟨["prog.asm".toList], by decide +kernel, rfl⟩)
    ((Options.accepts_outputs_iff _ _).mpr (by decide +kernel))

end Assembler.Command
