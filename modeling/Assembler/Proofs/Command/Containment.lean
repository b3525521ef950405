import Assembler.Proofs.Command.Outputs

/-!
# What a run leaves alone

A run writes no file but its three outputs, and not even those unless its arguments make sense and
its source file can be read.  When one output cannot be written, those before it are complete, and
the others are as they were.

Unless an output is named, the outputs take the place of the extension of the source file.  So they
are other files than the source file, as long as that does not have the extension of an output.

## Main definitions

* `StopsAfter` : a run that could write some of its outputs only.
* `Contained` : what a run leaves alone.

## Main results

* `Options.placeOf?_outputPath_ne` : the outputs are not the source file.
* `contained_run` : every run leaves all else alone.
-/

namespace Assembler.Command

/-- A run that wrote the first outputs and could not write the next one. -/
structure StopsAfter (storage : Storage) (before after : List (String × String))
    (result : Outcome × Storage) : Prop where
  status : result.1.status = 1
  output : result.1.output = ""
  /-- The outputs before are complete. -/
  complete : ∀ written ∈ before, result.2.read written.1 = .ok written.2
  /-- The outputs from there on are as they were. -/
  untouched : ∀ missing ∈ after, ∀ place, storage.placeOf? missing.1 = some place →
    result.2.target place = storage.target place
  /-- So is all else. -/
  frame : ∀ place, (∀ written ∈ before, storage.placeOf? written.1 ≠ some place) →
    result.2.target place = storage.target place

/-- What a run with arguments leaves alone in a storage. -/
structure Contained (arguments : List String) (storage : Storage) : Prop where
  /-- There is nothing new at a place to which the path of no output leads. -/
  frame : ∀ place, (∀ path ∈ (Request.ofArguments arguments).outputPaths,
    storage.placeOf? path ≠ some place) →
      (run arguments storage).2.target place = storage.target place
  /-- Every path leads to the same place as before. -/
  ways : ∀ path, (run arguments storage).2.placeOf? path = storage.placeOf? path
  /-- Arguments that make no sense change nothing. -/
  refused : Request.ofArguments arguments = .refused →
    (run arguments storage).2 = storage ∧ (run arguments storage).1.status ≠ 0
  /-- Neither does a source file that cannot be read. -/
  unread : ∀ options trouble, Request.ofArguments arguments = .assemble options →
    storage.read options.input = .error trouble →
      (run arguments storage).2 = storage ∧ (run arguments storage).1.status ≠ 0
  /-- The first output that cannot be written ends the run. -/
  stopped : ∀ options text, Request.ofArguments arguments = .assemble options →
    storage.read options.input = .ok text → ¬storage.Accepts (options.outputs (assemble text)) →
      ∃ before path content after trouble,
        options.outputs (assemble text) = before ++ (path, content) :: after ∧
          storage.Accepts before ∧ storage.write path content = .error trouble ∧
            StopsAfter storage before ((path, content) :: after) (run arguments storage)
  /-- The source file is kept, unless an output is named or the file is named like one. -/
  kept : ∀ options place contents, Request.ofArguments arguments = .assemble options →
    options.output = none →
      Path.extension? options.input ∉ [some "mc", some "ic", some "sdb"] →
        storage.locate options.input = .ok (.file place contents) →
          (run arguments storage).2.locate options.input = .ok (.file place contents)

variable {arguments : List String} {storage : Storage} {options : Options} {text : String}

theorem run_of_assemble (h : Request.ofArguments arguments = .assemble options) :
    run arguments storage = options.run storage := by
  rw [run, h]

namespace Options

/-- What a run leaves behind that could read its source file is what writing its outputs does. -/
theorem snd_run (h : storage.read options.input = .ok text) :
    (options.run storage).2 = (writeAll storage (options.outputs (assemble text))).2 := by
  rw [run, h]
  change _ = (writeAll storage (options.plan text).outputs).2
  dsimp only
  obtain ⟨trouble?, written⟩ := writeAll storage (options.plan text).outputs
  cases trouble? <;> rfl

/-- A run with options writes its outputs or nothing. -/
theorem snd_run_cases (options : Options) (storage : Storage) :
    (options.run storage).2 = storage ∨
      ∃ assembly, (options.run storage).2 = (writeAll storage (options.outputs assembly)).2 := by
  cases hread : storage.read options.input with
  | error trouble =>
    left
    rw [run, hread]
  | ok text => exact .inr ⟨assemble text, snd_run hread⟩

/-- Outputs that are named after the source file are other files, unless the source file has the
extension of an output. -/
theorem placeOf?_outputPath_ne (houtput : options.output = none)
    (hextension : Path.extension? options.input ∉ [some "mc", some "ic", some "sdb"])
    {place : Place} (hinput : storage.placeOf? options.input = some place) :
    ∀ path ∈ options.outputPaths, storage.placeOf? path ≠ some place := by
  intro path hpath hsame
  obtain ⟨suffix, hsuffix, rfl⟩ := List.mem_map.mp hpath
  obtain ⟨folder, target, hplace, -, hreaches⟩ := Storage.exists_reaches hinput
  obtain ⟨folder', target', hplace', -⟩ := Storage.exists_reaches hsame
  have hidle := hreaches.isIdle
  have hbase : options.outputBase = Path.withoutExtension options.input := by
    rw [outputBase, houtput]
    rfl
  rw [hplace, Path.lastPart_append _ (not_mem_suffix suffix hsuffix), hbase,
    Path.lastPart_withoutExtension hidle hreaches.ne_parent] at hplace'
  have hname : Path.lastPart options.input =
      Path.stemInPath (Path.lastPart options.input) ++ suffix.toList :=
    List.singleton_inj.mp (List.append_inj' hplace' rfl).2
  have hne : Path.lastPart options.input ≠ [] := by
    intro hnil
    rw [hnil] at hidle
    cases hidle
  have hended : ∀ ending : String, suffix.toList = '.' :: ending.toList → '.' ∉ ending.toList →
      Path.extension? options.input = some ending := by
    intro ending hending hpoint
    rw [hending] at hname
    rw [Path.extension?_eq hidle hreaches.ne_parent, hname,
      Path.afterPoint?_append_cons (Path.stemInPath_ne_nil hne) hpoint]
    exact congrArg some String.ofList_toList
  refine hextension ?_
  simp only [List.mem_cons, List.not_mem_nil, or_false] at hsuffix
  rcases hsuffix with rfl | rfl | rfl
  · rw [hended "mc" (by decide) (by decide)]
    exact List.mem_cons_self
  · rw [hended "ic" (by decide) (by decide)]
    simp
  · rw [hended "sdb" (by decide) (by decide)]
    simp

end Options

/-- A run writes its outputs or nothing. -/
theorem snd_run_cases (arguments : List String) (storage : Storage) :
    (run arguments storage).2 = storage ∨
      ∃ options assembly, Request.ofArguments arguments = .assemble options ∧
        (run arguments storage).2 = (writeAll storage (options.outputs assembly)).2 := by
  rw [run]
  cases hrequest : Request.ofArguments arguments with
  | assemble options =>
    rcases options.snd_run_cases storage with hsame | ⟨assembly, hwritten⟩
    · exact .inl hsame
    · exact .inr ⟨options, assembly, rfl, hwritten⟩
  | version => exact .inl rfl
  | help => exact .inl rfl
  | refused => exact .inl rfl

/-- Nothing changes at a place to which the path of no output leads. -/
theorem target_run {place : Place}
    (h : ∀ path ∈ (Request.ofArguments arguments).outputPaths, storage.placeOf? path ≠ some place) :
    (run arguments storage).2.target place = storage.target place := by
  rcases snd_run_cases arguments storage with hsame | ⟨options, assembly, hrequest, hwritten⟩
  · rw [hsame]
  · rw [hwritten]
    refine Storage.target_writeAll fun output hmem => h output.1 ?_
    rw [hrequest]
    exact List.mem_map_of_mem (f := Prod.fst) hmem

private theorem placeOf?_run (arguments : List String) (storage : Storage) (path : String) :
    (run arguments storage).2.placeOf? path = storage.placeOf? path := by
  rcases snd_run_cases arguments storage with hsame | ⟨options, assembly, -, hwritten⟩
  · rw [hsame]
  · rw [hwritten, Storage.placeOf?_writeAll]

/-- A run that cannot write an output stops there. -/
theorem stopsAfter_run {before after : List (String × String)} {path content : String}
    (hread : storage.read options.input = .ok text)
    (houtputs : options.outputs (assemble text) = before ++ (path, content) :: after)
    (hbefore : storage.Accepts before) {trouble : Trouble}
    (hpath : storage.write path content = .error trouble) :
    StopsAfter storage before ((path, content) :: after) (options.run storage) := by
  obtain ⟨trouble, hall⟩ := Storage.writeAll_of_stops hbefore hpath after
  have hplaces := options.pairwise_outputs (assemble text) storage
  rw [houtputs, List.pairwise_append] at hplaces
  have hrun : options.run storage =
      ((options.plan text).stopped path trouble.message, (writeAll storage before).2) := by
    have hwritten : writeAll storage (options.plan text).outputs =
        (some (path, trouble), (writeAll storage before).2) := by
      rw [← hall, ← houtputs]
      rfl
    rw [Options.run, hread]
    dsimp only
    rw [hwritten]
  rw [hrun]
  exact
    { status := rfl
      output := rfl
      complete := fun written hmem => Storage.read_writeAll hbefore hplaces.1 hmem
      untouched := fun missing hmissing place hplace =>
        Storage.target_writeAll fun written hmem hsame =>
          hplaces.2.2 written hmem missing hmissing place hsame hplace
      frame := fun place hnone => Storage.target_writeAll hnone }

/-- A run leaves all alone but its outputs. -/
theorem contained_run (arguments : List String) (storage : Storage) :
    Contained arguments storage where
  frame _ := target_run
  ways := placeOf?_run arguments storage
  refused h := by
    rw [run, h]
    exact ⟨rfl, Nat.succ_ne_zero _⟩
  unread options trouble h hread := by
    rw [run_of_assemble h, Options.run, hread]
    exact ⟨rfl, Nat.one_ne_zero⟩
  stopped options text h hread hnot := by
    obtain ⟨before, path, content, after, trouble, houtputs, hbefore, hpath⟩ :=
      Storage.exists_of_not_accepts hnot
    refine ⟨before, path, content, after, trouble, houtputs, hbefore, hpath, ?_⟩
    rw [run_of_assemble h]
    exact stopsAfter_run hread houtputs hbefore hpath
  kept options place contents h houtput hextension hlocate := by
    have hinput : storage.placeOf? options.input = some place := by
      rw [Storage.placeOf?, hlocate]
      rfl
    have hother : ∀ path ∈ (Request.ofArguments arguments).outputPaths,
        storage.placeOf? path ≠ some place := by
      rw [h]
      exact Options.placeOf?_outputPath_ne houtput hextension hinput
    have htarget : (run arguments storage).2.target place = .file place contents := by
      rw [target_run hother]
      exact Except.ok.inj ((Storage.locate_of_placeOf? hinput).symm.trans hlocate)
    rw [Storage.locate_of_placeOf? ((placeOf?_run arguments storage options.input).trans hinput),
      htarget]

/-- A program without instructions, as the text of a source file. -/
def emptyProgram : String := "START 7\nEND\n"

/-- A working folder in which a folder stands in the way of the second output. -/
def blockedFolder : Storage where
  files := [(["prog.asm".toList], emptyProgram.toUTF8)]
  folders := [["prog.ic".toList]]

/-- The run stops at the output that cannot be written, and the source file is kept. -/
theorem contained_blockedFolder :
    (∃ before path content after trouble,
      Options.outputs ⟨"prog.asm", none, true, false⟩ (assemble emptyProgram) =
          before ++ (path, content) :: after ∧
        blockedFolder.Accepts before ∧ blockedFolder.write path content = .error trouble ∧
          StopsAfter blockedFolder before ((path, content) :: after)
            (run ["prog.asm", "--tables"] blockedFolder)) ∧
      (run ["prog.asm", "--tables"] blockedFolder).2.locate "prog.asm" =
        .ok (.file ["prog.asm".toList] emptyProgram.toUTF8) := by
  have hrequest : Request.ofArguments ["prog.asm", "--tables"] =
      .assemble ⟨"prog.asm", none, true, false⟩ := by decide
  have hplace : blockedFolder.placeOf? "prog.asm" = some ["prog.asm".toList] := by decide +kernel
  have hcontents : blockedFolder.contents? ["prog.asm".toList] = some emptyProgram.toUTF8 := rfl
  have hblocked : ¬blockedFolder.Accepts
      (Options.outputs ⟨"prog.asm", none, true, false⟩ (assemble emptyProgram)) := by
    rw [Options.accepts_outputs_iff]
    decide +kernel
  have hlocate : blockedFolder.locate "prog.asm" =
      .ok (.file ["prog.asm".toList] emptyProgram.toUTF8) := by
    rw [Storage.locate_of_placeOf? hplace, Storage.target_of_contents? hcontents]
  have hextension : Path.extension? "prog.asm" ∉ [some "mc", some "ic", some "sdb"] := by
    decide +kernel
  have hread : blockedFolder.read "prog.asm" = .ok emptyProgram :=
    Storage.read_eq_ok_iff.mpr ⟨_, hplace, hcontents⟩
  have hcontained := contained_run ["prog.asm", "--tables"] blockedFolder
  exact ⟨hcontained.stopped _ _ hrequest hread hblocked,
    hcontained.kept ⟨"prog.asm", none, true, false⟩ _ _ hrequest rfl hextension hlocate⟩

end Assembler.Command
