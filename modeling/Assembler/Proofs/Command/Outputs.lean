import Assembler.Command.Run
import Assembler.Proofs.Command.Storage

/-!
# Outputs written in order

Texts are written to files one after the other, up to the first file that cannot be written.  No
write has a say in whether a later one succeeds, so all of this is settled by the storage that the
first one finds: the files before the first one that cannot be written get their texts, and nothing
changes elsewhere.

The three outputs of a run have one path but for the suffix, so they never share a place.

## Main definitions

* `Options.outputPaths`, `Request.outputPaths` : the paths of the outputs.
* `Storage.Accepts` : files that can be written.

## Main results

* `Storage.placeOf?_writeAll`, `Storage.target_writeAll` : what no write changes.
* `Storage.writeAll_of_accepts`, `Storage.writeAll_of_stops` : where writing comes to an end.
* `Storage.read_writeAll` : what was written is read back.
* `Options.accepts_outputs_iff` : whether the outputs can be written is known before the run.
* `Options.pairwise_outputs` : the outputs of a run do not share a place.
-/

namespace Assembler.Command

/-- The paths of the outputs. -/
def Options.outputPaths (options : Options) : List String :=
  [".mc", ".ic", ".sdb"].map (options.outputBase ++ ·)

/-- The paths of the outputs that a request may write. -/
def Request.outputPaths : Request → List String
  | assemble options => options.outputPaths
  | version => []
  | help => []
  | refused => []

namespace Storage

/-- Whether texts can be written to files. -/
def Accepts (storage : Storage) (outputs : List (String × String)) : Prop :=
  ∀ output ∈ outputs, ∃ written, storage.write output.1 output.2 = .ok written

variable {storage : Storage} {outputs before after : List (String × String)} {path text : String}
  {place : Place}

private theorem exists_placeOf?_of_accepts (h : storage.Accepts outputs) {output : String × String}
    (hmem : output ∈ outputs) : ∃ place, storage.placeOf? output.1 = some place := by
  obtain ⟨written, hwritten⟩ := h output hmem
  obtain ⟨place, hplace, -⟩ := write_eq_ok_iff.mp hwritten
  exact ⟨place, hplace⟩

/-- One text is written, or writing ends there. -/
theorem writeAll_cons (storage : Storage) (path text : String)
    (rest : List (String × String)) :
    (∃ place, storage.placeOf? path = some place ∧
        writeAll storage ((path, text) :: rest) =
          writeAll (storage.put place text.toUTF8) rest) ∨
      storage.placeOf? path = none ∧
        ∃ trouble, writeAll storage ((path, text) :: rest) = (some (path, trouble), storage) := by
  rw [writeAll]
  have hwrite := toOption_write storage path text
  cases hresult : storage.write path text with
  | ok written =>
    obtain ⟨place, hplace, rfl⟩ := write_eq_ok_iff.mp hresult
    exact .inl ⟨place, hplace, rfl⟩
  | error trouble =>
    rw [hresult] at hwrite
    exact .inr ⟨Option.map_eq_none_iff.mp hwrite.symm, trouble, rfl⟩

/-- Whatever is written, every path leads to the same place. -/
theorem placeOf?_writeAll (storage : Storage) (outputs : List (String × String)) (other : String) :
    (writeAll storage outputs).2.placeOf? other = storage.placeOf? other := by
  induction outputs generalizing storage with
  | nil => rfl
  | cons output rest ih =>
    obtain ⟨place, hplace, hall⟩ | ⟨-, trouble, hall⟩ :=
      writeAll_cons storage output.1 output.2 rest
    · rw [hall, ih, placeOf?_put hplace]
    · rw [hall]

/-- Nothing changes at a place that no output leads to. -/
theorem target_writeAll (h : ∀ output ∈ outputs, storage.placeOf? output.1 ≠ some place) :
    (writeAll storage outputs).2.target place = storage.target place := by
  induction outputs generalizing storage with
  | nil => rfl
  | cons output rest ih =>
    obtain ⟨other, hother, hall⟩ | ⟨-, trouble, hall⟩ :=
      writeAll_cons storage output.1 output.2 rest
    · have hne : place ≠ other := by
        rintro rfl
        exact h output List.mem_cons_self hother
      obtain ⟨folder, target, hplace, -, hreaches⟩ := exists_reaches hother
      rw [hall, ih, hplace, target_put hreaches.isOpen, if_neg (hplace ▸ hne)]
      intro later hlater
      rw [placeOf?_put hother]
      exact h later (List.mem_cons_of_mem _ hlater)
    · rw [hall]

/-- Whether texts can be written does not depend on what was written before. -/
private theorem accepts_writeAll (h : storage.Accepts after) (before : List (String × String)) :
    (writeAll storage before).2.Accepts after := by
  intro output hmem
  obtain ⟨place, hplace⟩ := exists_placeOf?_of_accepts h hmem
  exact ⟨_, write_eq_ok_iff.mpr ⟨place, by rw [placeOf?_writeAll, hplace], rfl⟩⟩

/-- Texts that can be written are. -/
theorem writeAll_append (h : storage.Accepts before) (after : List (String × String)) :
    writeAll storage (before ++ after) = writeAll (writeAll storage before).2 after := by
  induction before generalizing storage with
  | nil => rfl
  | cons output rest ih =>
    obtain ⟨written, hwritten⟩ := h output List.mem_cons_self
    have hstep : ∀ others, writeAll storage (output :: others) = writeAll written others := by
      intro others
      rw [writeAll, hwritten]
    have hrest : written.Accepts rest := by
      have hone : (writeAll storage [output]).2 = written := by rw [hstep]; rfl
      rw [← hone]
      exact accepts_writeAll (fun later hlater => h later (List.mem_cons_of_mem _ hlater)) _
    rw [List.cons_append, hstep, hstep, ih hrest]

/-- Writing all that can be written has no trouble. -/
theorem writeAll_of_accepts (h : storage.Accepts outputs) :
    (writeAll storage outputs).1 = none := by
  have hall := writeAll_append h []
  rw [List.append_nil] at hall
  rw [hall]
  rfl

/-- Where not all texts can be written, there is a first one that cannot. -/
theorem exists_of_not_accepts (h : ¬storage.Accepts outputs) :
    ∃ before path text after trouble, outputs = before ++ (path, text) :: after ∧
      storage.Accepts before ∧ storage.write path text = .error trouble := by
  induction outputs with
  | nil => exact absurd (fun output hmem => absurd hmem List.not_mem_nil) h
  | cons output rest ih =>
    cases hwrite : storage.write output.1 output.2 with
    | error trouble =>
      exact ⟨[], output.1, output.2, rest, trouble, rfl,
        fun other hmem => absurd hmem List.not_mem_nil, hwrite⟩
    | ok written =>
      have hrest : ¬storage.Accepts rest := fun hrest =>
        h (List.forall_mem_cons.mpr ⟨⟨written, hwrite⟩, hrest⟩)
      obtain ⟨before, path, text, after, trouble, rfl, hbefore, hpath⟩ := ih hrest
      exact ⟨output :: before, path, text, after, trouble, rfl,
        List.forall_mem_cons.mpr ⟨⟨written, hwrite⟩, hbefore⟩, hpath⟩

/-- Writing ends at the first file that cannot be written, and what was written stays. -/
theorem writeAll_of_stops (hbefore : storage.Accepts before) {trouble : Trouble}
    (hpath : storage.write path text = .error trouble) (after : List (String × String)) :
    ∃ trouble, writeAll storage (before ++ (path, text) :: after) =
      (some (path, trouble), (writeAll storage before).2) := by
  rw [writeAll_append hbefore]
  obtain ⟨place, hplace, -⟩ | ⟨-, trouble, hall⟩ :=
    writeAll_cons (writeAll storage before).2 path text after
  · rw [placeOf?_writeAll] at hplace
    rw [write_eq_ok_iff.mpr ⟨place, hplace, rfl⟩] at hpath
    cases hpath
  · exact ⟨trouble, hall⟩

/-- Texts that were written to files at different places are read back. -/
theorem read_writeAll (h : storage.Accepts outputs)
    (hplaces : outputs.Pairwise fun output later =>
      ∀ place, storage.placeOf? output.1 = some place → storage.placeOf? later.1 ≠ some place)
    {output : String × String} (hmem : output ∈ outputs) :
    (writeAll storage outputs).2.read output.1 = .ok output.2 := by
  obtain ⟨before, after, rfl⟩ := List.append_of_mem hmem
  have hbefore : storage.Accepts before := fun other hother =>
    h other (List.mem_append_left _ hother)
  obtain ⟨place, hplace⟩ := exists_placeOf?_of_accepts h hmem
  have hbetween : (writeAll storage before).2.placeOf? output.1 = some place := by
    rw [placeOf?_writeAll, hplace]
  -- The text is put at its place after those before it, and those behind it leave it there.
  have hall : writeAll storage (before ++ output :: after) =
      writeAll ((writeAll storage before).2.put place output.2.toUTF8) after := by
    rw [writeAll_append hbefore]
    obtain ⟨other, hother, hput⟩ | ⟨hnone, -⟩ :=
      writeAll_cons (writeAll storage before).2 output.1 output.2 after
    · obtain rfl := Option.some.inj (hother.symm.trans hbetween)
      exact hput
    · rw [hbetween] at hnone
      cases hnone
  have hkept : (writeAll storage (before ++ output :: after)).2.target place =
      .file place output.2.toUTF8 := by
    rw [hall, target_writeAll]
    · exact target_of_contents? (contents?_put_self _ _ _)
    · intro later hlater
      rw [placeOf?_put hbetween, placeOf?_writeAll]
      have hpair := (List.pairwise_append.mp hplaces).2.1
      exact (List.pairwise_cons.mp hpair).1 later hlater place hplace
  exact read_eq_ok_iff.mpr ⟨place, by rw [placeOf?_writeAll, hplace], contents?_of_target hkept⟩

/-- Paths that differ in a suffix only do not lead to one place. -/
private theorem placeOf?_append_ne {base suffix other : String} (hsuffix : '/' ∉ suffix.toList)
    (hother : '/' ∉ other.toList) (hne : suffix ≠ other)
    (h : storage.placeOf? (base ++ suffix) = some place) :
    storage.placeOf? (base ++ other) ≠ some place := by
  intro h'
  obtain ⟨folder, -, hplace, -⟩ := exists_reaches h
  obtain ⟨folder', -, hplace', -⟩ := exists_reaches h'
  rw [hplace, Path.lastPart_append base hsuffix, Path.lastPart_append base hother] at hplace'
  have hlast := List.singleton_inj.mp (List.append_inj' hplace' rfl).2
  exact hne (String.toList_inj.mp (List.append_cancel_left hlast))

end Storage

namespace Options

/-- No suffix of an output holds a slash. -/
theorem not_mem_suffix : ∀ suffix ∈ [".mc", ".ic", ".sdb"], '/' ∉ suffix.toList := by
  decide

private theorem map_fst_outputs (options : Options) (assembly : Assembly) :
    (options.outputs assembly).map Prod.fst = options.outputPaths :=
  rfl

/-- Whether the outputs can be written does not depend on what they hold. -/
theorem accepts_outputs_iff {storage : Storage} (options : Options) (assembly : Assembly) :
    storage.Accepts (options.outputs assembly) ↔
      ∀ path ∈ options.outputPaths, (storage.placeOf? path).isSome = true := by
  rw [← options.map_fst_outputs assembly, List.forall_mem_map]
  constructor
  · intro h output hmem
    obtain ⟨place, hplace⟩ := Storage.exists_placeOf?_of_accepts h hmem
    rw [hplace]
    rfl
  · intro h output hmem
    obtain ⟨place, hplace⟩ := Option.isSome_iff_exists.mp (h output hmem)
    exact ⟨_, Storage.write_eq_ok_iff.mpr ⟨place, hplace, rfl⟩⟩

/-- The outputs of a run lie at different places. -/
theorem pairwise_outputs (options : Options) (assembly : Assembly) (storage : Storage) :
    (options.outputs assembly).Pairwise fun output later =>
      ∀ place, storage.placeOf? output.1 = some place →
        storage.placeOf? later.1 ≠ some place := by
  have hdistinct : [".mc", ".ic", ".sdb"].Pairwise (· ≠ ·) := by decide
  have hpaths : options.outputPaths.Pairwise fun path later =>
      ∀ place, storage.placeOf? path = some place → storage.placeOf? later ≠ some place := by
    rw [outputPaths, List.pairwise_map]
    refine hdistinct.imp_of_mem ?_
    intro suffix other hsuffix hother hne place hplace
    exact Storage.placeOf?_append_ne (not_mem_suffix suffix hsuffix) (not_mem_suffix other hother)
      hne hplace
  rw [← options.map_fst_outputs assembly, List.pairwise_map] at hpaths
  exact hpaths

end Options

end Assembler.Command
