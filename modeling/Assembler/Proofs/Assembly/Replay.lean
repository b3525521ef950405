import Assembler.Proofs.Assembly.Extent
import Assembler.Proofs.Assembly.Usage

/-!
# Replaying the location counter

As long as nothing fails, every movement of the location counter leaves a record, but for the end
of a program without END.  So the counter can be replayed from the records alone: each of them tells
the address at which the next one stands.  Only the records of LTORG and END do not tell by how much
they move the counter; they move it by the number of literals that the lines since the last LTORG
use for the first time, and this is where those literals are placed, in that order.

## Main definitions

* `Record.next` : the address behind a record.
* `firstAddress`, `endAddress` : the address of the first of some records, and the counter behind
  the last one.
* `Replays` : the records of a program replay its location counter.

## Main results

* `Scan.replay_step` : the record of a line tells where it moves the counter.
* `Scan.firstAddress_run` : records begin where the counter stands.
* `replays_of_not_failed` : the records of every program that is read without an error replay its
  location counter.
-/

namespace Assembler

/-- The address behind a record that stands at an address, where so many literals wait. -/
def Record.next (address waiting : Nat) : Record → Nat
  | directive .origin target? => target?.getD address
  | directive .ltorg _ => address + waiting
  | directive .finish _ => address + waiting
  | directive _ _ => address
  | declaration .constant _ => address + 1
  | declaration .storage words => address + words
  | instruction _ _ _ => address + 1

/-- Whether a record is that of an LTORG or of an END. -/
def Record.placesPool : Record → Bool
  | directive .ltorg _ => true
  | directive .finish _ => true
  | _ => false

/-- Whether a record is that of an END. -/
def Record.isEnd : Record → Bool
  | directive word _ => word == .finish
  | _ => false

/-- The address of the first record, or the one behind all of them if there is none. -/
def firstAddress (records : List (Located Record)) (behind : Nat) : Nat :=
  (records.head?.map Located.address).getD behind

/-- The counter behind the last record of a program: where the program is closed, or, if that record
is an END, where the counter stands in the end. -/
def endAddress (text : String) : Nat :=
  if (assemble text).records.getLast?.any (·.content.isEnd) then (assemble text).context.location
  else (programScan text).context.location

/-- The literals that the lines before a record use for the first time since the last LTORG. -/
def freshBefore (text : String) (record : Located Record) : List String :=
  freshUses ((programLines text).take (record.line - 1))

/-- The records of a program replay its location counter. -/
structure Replays (text : String) : Prop where
  first : firstAddress (assemble text).records (endAddress text) = (assemble text).context.start
  next : ∀ before record after, (assemble text).records = before ++ record :: after →
    firstAddress after (endAddress text) =
      record.content.next record.address (freshBefore text record).length
  placed : ∀ record ∈ (assemble text).records, record.content.placesPool = true →
    ∀ position literal, (freshBefore text record)[position]? = some literal →
      (assemble text).context.literals.addressOf? literal = some (record.address + position)

private theorem firstAddress_append (earlier later : List (Located Record)) (behind : Nat) :
    firstAddress (earlier ++ later) behind = firstAddress earlier (firstAddress later behind) := by
  cases earlier <;> rfl

/-! ### One line -/

private theorem Record.next_of_placing {word : Directive} {place : Context → Except Fault Context}
    (h : (Mnemonic.directive word).placing? = some place) (address waiting : Nat)
    (operand : Option Nat) :
    (directive word operand).next address waiting = address + waiting := by
  cases word with
  | ltorg => rfl
  | finish => rfl
  | start => cases h
  | origin => cases h
  | equ => cases h

namespace Context

theorem Performed.location_eq {bound after : Context} {statement : Statement} {record : Record}
    (h : bound.Performed statement after (.ok record)) (horderly : bound.literals.Orderly) :
    after.location = record.next bound.location bound.literals.openSize := by
  cases h with
  | instruction _ _ _ hrefer =>
    rw [hrefer.location_eq]
    rfl
  | constant => rfl
  | storage => rfl
  | origin => rfl
  | placed _ hplacing hplaced =>
    rw [(eq_poolPlaced_of_placing horderly hplacing hplaced).1, Record.next_of_placing hplacing]
    rfl

/-- The record of a source line tells where it moves the location counter. -/
theorem Executed.location_eq {context : Context} {source : Except Fault SourceLine}
    {effect : Effect} (h : context.Executed source effect) (horderly : context.literals.Orderly)
    {record? : Option Record} (hresult : effect.result = .ok record?) :
    effect.context.location = record?.elim context.location
      (Record.next context.location context.literals.openSize) := by
  cases h with
  | unread => cases hresult
  | literal =>
    cases hresult
    rfl
  | @performed statement after result _ hperformed =>
    cases result with
    | error fault => cases hresult
    | ok record =>
      cases hresult
      rw [hperformed.location_eq (orderly_bindLabel horderly _ _), bindLabel_location,
        bindLabel_literals]
      rfl
  | incomplete => cases hresult
  | valueless => cases hresult
  | equated =>
    cases hresult
    rfl

/-- The record of an LTORG or an END is left by one that has room for the open pool. -/
private theorem Executed.room_of_placesPool {context : Context} {source : Except Fault SourceLine}
    {effect : Effect} (h : context.Executed source effect) (horderly : context.literals.Orderly)
    {record : Record} (hresult : effect.result = .ok (some record))
    (hplaces : record.placesPool = true) :
    ∃ statement word place, source = .ok (.statement statement) ∧
      statement.mnemonic = .directive word ∧ record = .directive word none ∧
      (Mnemonic.directive word).placing? = some place ∧
      context.location + context.literals.openSize ≤ maxAddress := by
  cases h with
  | unread => cases hresult
  | literal => cases hresult
  | @performed statement after result _ hperformed =>
    cases result with
    | error fault => cases hresult
    | ok other =>
      cases hresult
      cases hperformed with
      | instruction => cases hplaces
      | constant => cases hplaces
      | storage => cases hplaces
      | origin => cases hplaces
      | @placed word place placed hmnemonic hplacing hplaced =>
        have hroom :=
          (eq_poolPlaced_of_placing (orderly_bindLabel horderly _ _) hplacing hplaced).2
        rw [bindLabel_location, bindLabel_literals] at hroom
        exact ⟨statement, word, place, rfl, hmnemonic, rfl, hplacing, hroom⟩
  | incomplete => cases hresult
  | valueless => cases hresult
  | equated =>
    cases hresult
    cases hplaces

end Context

namespace Scan

variable {scan : Scan} {number : Nat} {line : String} {lines : List String}

/-- The program has begun behind a line inside it. -/
theorem phase_proceed_ne_opening {warnings : List Fault} {source : Except Fault SourceLine}
    {context : Context} : (proceed number warnings source context).2.phase ≠ .opening := by
  dsimp only [proceed]
  split
  · split_ifs <;> simp
  · simp

/-- A line that leaves a record is read before the program has ended, and the program has begun
behind it. -/
theorem phase_of_records {record : Located Record}
    (h : record ∈ (scan.step number line).1.records) :
    scan.phase ≠ .ended ∧ (scan.step number line).2.phase ≠ .opening := by
  have hstepped := scan.stepped_step number line
  generalize scan.step number line = outcome at h hstepped ⊢
  cases hstepped with
  | idle => exact absurd h List.not_mem_nil
  | opened _ hphase => exact ⟨by simp [hphase], by simp [openWith]⟩
  | proceeded _ hphase => exact ⟨hphase, phase_proceed_ne_opening⟩

/-- A line that does not fail leaves no record and keeps the location counter, or its record tells
where it moves the counter. -/
theorem replay_step (horderly : scan.context.literals.Orderly)
    (hclean : ¬(scan.step number line).1.Failed) :
    ((scan.step number line).1.records = [] ∧
      (scan.step number line).2.context.location = scan.context.location) ∨
      ∃ record, (scan.step number line).1.records = [record] ∧
        (scan.step number line).2.context.location =
          record.content.next record.address scan.context.literals.openSize := by
  have hstepped := scan.stepped_step number line
  generalize scan.step number line = outcome at hclean hstepped ⊢
  cases hstepped with
  | idle => exact .inl ⟨rfl, rfl⟩
  | opened =>
    refine .inr ⟨_, rfl, ?_⟩
    rw [openWith]
    dsimp only
    rw [Context.bindLabel_location]
    rfl
  | proceeded =>
    dsimp only [proceed] at hclean ⊢
    cases hresult : (scan.context.execute (SourceLine.ofText line)).result with
    | error fault => exact absurd (Trace.failed_ofLine_iff.mpr ⟨fault, hresult⟩) hclean
    | ok record? =>
      have hlocation := (Context.executed_execute _ _).location_eq horderly hresult
      cases record? with
      | none => exact .inl ⟨rfl, hlocation⟩
      | some record => exact .inr ⟨_, rfl, hlocation⟩

/-- The record of a line inside a program stands where the counter does; without a record the
counter stays. -/
theorem firstAddress_proceed {context : Context} (horderly : context.literals.Orderly)
    {warnings : List Fault} {source : Except Fault SourceLine}
    (hclean : ¬(proceed number warnings source context).1.Failed) :
    firstAddress (proceed number warnings source context).1.records
      (proceed number warnings source context).2.context.location = context.location := by
  dsimp only [proceed] at hclean ⊢
  cases hresult : (context.execute source).result with
  | error fault => exact absurd (Trace.failed_ofLine_iff.mpr ⟨fault, hresult⟩) hclean
  | ok record? =>
    cases record? with
    | none => exact (Context.executed_execute _ _).location_eq horderly hresult
    | some record => rfl

/-- A line of a program that has begun keeps its start, and its record stands where the counter
does. -/
theorem firstAddress_step (horderly : scan.context.literals.Orderly)
    (hphase : scan.phase ≠ .opening) (hclean : ¬(scan.step number line).1.Failed) :
    (scan.step number line).2.phase ≠ .opening ∧
      (scan.step number line).2.context.start = scan.context.start ∧
      firstAddress (scan.step number line).1.records
        (scan.step number line).2.context.location = scan.context.location := by
  have hstepped := scan.stepped_step number line
  generalize scan.step number line = outcome at hclean hstepped ⊢
  cases hstepped with
  | idle => exact ⟨hphase, rfl, rfl⟩
  | opened _ hopening => exact absurd hopening hphase
  | proceeded =>
    exact ⟨phase_proceed_ne_opening, (Context.executed_execute _ _).start_eq horderly,
      firstAddress_proceed horderly hclean⟩

/-- A line before the program has begun changes nothing, or its record stands at the start of the
program. -/
theorem firstAddress_step_of_opening (horderly : scan.context.literals.Orderly)
    (hstart : scan.context.location = scan.context.start)
    (hclean : ¬(scan.step number line).1.Failed) :
    scan.step number line = ({}, scan) ∨ (scan.step number line).2.phase ≠ .opening ∧
      firstAddress (scan.step number line).1.records
        (scan.step number line).2.context.location = (scan.step number line).2.context.start := by
  have hstepped := scan.stepped_step number line
  generalize scan.step number line = outcome at hclean hstepped ⊢
  cases hstepped with
  | idle => exact .inl rfl
  | opened =>
    refine .inr ⟨by simp [openWith], ?_⟩
    rw [openWith]
    dsimp only
    rw [Context.bindLabel_start]
    rfl
  | proceeded =>
    have hsame := (Context.executed_execute scan.context (SourceLine.ofText line)).start_eq horderly
    exact .inr ⟨phase_proceed_ne_opening,
      (firstAddress_proceed horderly hclean).trans (hstart.trans hsame.symm)⟩

/-- An LTORG or an END that leaves a record places the literals that wait from the address of the
record on. -/
theorem placements_step_of_placesPool (horderly : scan.context.literals.Orderly)
    {record : Located Record} (h : record ∈ (scan.step number line).1.records)
    (hplaces : record.content.placesPool = true) :
    ∃ word, record.content = .directive word none ∧ isDirectiveLine word line = true ∧
      (scan.step number line).2.context.literals.placements =
        scan.context.literals.placements ++
          scan.context.literals.waitingTexts.zipIdx record.address := by
  have hstepped := scan.stepped_step number line
  generalize scan.step number line = outcome at h hstepped ⊢
  cases hstepped with
  | idle => exact absurd h List.not_mem_nil
  | opened =>
    rw [List.mem_singleton.mp h] at hplaces
    cases hplaces
  | proceeded =>
    obtain ⟨haddress, hresult⟩ := Trace.eq_of_mem_records_ofLine h
    have hexecuted := scan.context.executed_execute (SourceLine.ofText line)
    obtain ⟨statement, word, place, hread, hmnemonic, hcontent, hplacing, hroom⟩ :=
      hexecuted.room_of_placesPool horderly hresult hplaces
    refine ⟨word, hcontent, ?_, ?_⟩
    · rw [isDirectiveLine, hread]
      exact beq_iff_eq.mpr hmnemonic
    · rw [← hmnemonic] at hplacing
      have hplacements := hexecuted.placements horderly
      rw [hread, Context.placements_eq_due hplacing, Context.due_eq horderly, if_pos hroom,
        ← hread] at hplacements
      rw [haddress]
      exact hplacements

/-! ### Any lines -/

/-- A program that has begun keeps its start, and its records go on where the counter stands. -/
theorem firstAddress_run (horderly : scan.context.literals.Orderly)
    (hphase : scan.phase ≠ .opening) (hclean : ¬(run number lines scan).1.Failed) :
    (run number lines scan).2.context.start = scan.context.start ∧
      firstAddress (run number lines scan).1.records (run number lines scan).2.context.location =
        scan.context.location := by
  induction lines generalizing number scan with
  | nil => exact ⟨rfl, rfl⟩
  | cons line rest ih =>
    rw [run_cons, Trace.failed_append, not_or] at hclean
    obtain ⟨hnext, hstart, haddress⟩ := firstAddress_step horderly hphase hclean.1
    obtain ⟨hkept, hrest⟩ := ih ((stepped_step _ _ _).orderly horderly) hnext hclean.2
    rw [run_cons]
    dsimp only [Trace.append]
    rw [firstAddress_append, hrest]
    exact ⟨hkept.trans hstart, haddress⟩

/-- The records of a program begin at its start. -/
theorem firstAddress_run_of_opening (horderly : scan.context.literals.Orderly)
    (hstart : scan.context.location = scan.context.start)
    (hclean : ¬(run number lines scan).1.Failed) :
    firstAddress (run number lines scan).1.records (run number lines scan).2.context.location =
      (run number lines scan).2.context.start := by
  induction lines generalizing number scan with
  | nil => exact hstart
  | cons line rest ih =>
    rw [run_cons, Trace.failed_append, not_or] at hclean
    rw [run_cons]
    dsimp only [Trace.append]
    obtain hidle | ⟨hnext, haddress⟩ := firstAddress_step_of_opening horderly hstart hclean.1
    · rw [hidle] at hclean ⊢
      exact ih horderly hstart hclean.2
    · obtain ⟨hkept, hrest⟩ :=
        firstAddress_run ((stepped_step _ _ _).orderly horderly) hnext hclean.2
      rw [firstAddress_append, hrest, hkept, haddress]

/-- Records before and behind a record were left by the lines before and behind its line. -/
private theorem exists_split_of_records {before after : List (Located Record)}
    {record : Located Record} (h : (run number lines scan).1.records = before ++ record :: after) :
    ∃ earlier line later, lines = earlier ++ line :: later ∧
      record.line = number + earlier.length ∧
      ((run number earlier scan).2.step (number + earlier.length) line).1.records = [record] ∧
      (run (number + earlier.length + 1) later
        ((run number earlier scan).2.step (number + earlier.length) line).2).1.records =
          after := by
  induction lines generalizing number scan before with
  | nil => exact absurd h.symm (List.append_ne_nil_of_right_ne_nil _ (List.cons_ne_nil _ _))
  | cons line rest ih =>
    rw [run_cons] at h
    dsimp only [Trace.append] at h
    have hshift (earlier : List String) :
        number + (line :: earlier).length = number + 1 + earlier.length := by
      rw [List.length_cons]
      omega
    obtain hnone | ⟨first, hfirst, hline⟩ := (stepped_step scan number line).records
    · rw [hnone, List.nil_append] at h
      obtain ⟨earlier, other, later, hlines, hnumber, hstep, hrest⟩ := ih h
      refine ⟨line :: earlier, other, later, by rw [hlines]; rfl, ?_⟩
      rw [hshift]
      exact ⟨hnumber, hstep, hrest⟩
    · rw [hfirst] at h
      cases before with
      | nil =>
        obtain ⟨rfl, hafter⟩ := List.cons.inj h
        exact ⟨[], line, rest, rfl, hline, hfirst, hafter⟩
      | cons head others =>
        obtain ⟨-, htail⟩ := List.cons.inj h
        obtain ⟨earlier, other, later, hlines, hnumber, hstep, hrest⟩ := ih htail
        refine ⟨line :: earlier, other, later, by rw [hlines]; rfl, ?_⟩
        rw [hshift]
        exact ⟨hnumber, hstep, hrest⟩

end Scan

/-! ### Whole programs -/

/-- The end of a program only adds placements. -/
theorem placements_prefix_assemble (text : String) :
    (programScan text).context.literals.placements <+:
      (assemble text).context.literals.placements := by
  have horderly := orderly_programScan text
  rw [assemble_context, Scan.finish_eq horderly]
  split_ifs with hphase hroom
  · exact List.prefix_rfl
  · rw [Context.placements_poolPlaced horderly hroom]
    exact List.prefix_append _ _
  · exact List.prefix_rfl

private theorem start_assemble (text : String) :
    (assemble text).context.start = (programScan text).context.start := by
  rw [assemble_context, Scan.finish_eq (orderly_programScan text)]
  split_ifs <;> rfl

/-- How a record comes about, in a program that is read without an error: by a line, where the
literals that wait are those that the lines before it use for the first time since the last
LTORG. -/
structure LeftBy (text : String) (record : Located Record) (after : List (Located Record))
    (scan : Scan) (line : String) (later : List String) : Prop where
  orderly : scan.context.literals.Orderly
  phase : scan.phase ≠ .ended
  waiting : scan.context.literals.waitingTexts = freshBefore text record
  clean : ¬(scan.step record.line line).1.Failed
  records : (scan.step record.line line).1.records = [record]
  later_clean : ¬(Scan.run (record.line + 1) later (scan.step record.line line).2).1.Failed
  later_records :
    (Scan.run (record.line + 1) later (scan.step record.line line).2).1.records = after
  scan_eq : (Scan.run (record.line + 1) later (scan.step record.line line).2).2 = programScan text

private theorem exists_leftBy {text : String} (hclean : ¬(scanText text {}).1.Failed)
    {before after : List (Located Record)} {record : Located Record}
    (h : (assemble text).records = before ++ record :: after) :
    ∃ scan line later, LeftBy text record after scan line later := by
  have hread : ¬(Scan.run 1 (programLines text) ⟨.opening, {}⟩).1.Failed :=
    fun hfailed => hclean (Trace.failed_append.mpr (.inl hfailed))
  rw [assemble_records] at h
  obtain ⟨earlier, line, later, hlines, hnumber, hstep, hafter⟩ := Scan.exists_split_of_records h
  have hscan : (Scan.run 1 (programLines text) ⟨.opening, {}⟩).2 = programScan text := rfl
  rw [hlines, Scan.run_append, Scan.run_cons, ← hnumber] at hread hscan
  rw [← hnumber] at hstep hafter
  rw [Trace.failed_append, Trace.failed_append, not_or, not_or] at hread
  have hphase := (Scan.phase_of_records (by rw [hstep]; exact List.mem_singleton_self record)).1
  have hfresh : freshBefore text record = freshUses earlier := by
    rw [freshBefore, hlines, hnumber, Nat.add_sub_cancel_left, List.take_left]
  exact ⟨_, line, later, Scan.orderly_run LiteralTable.orderly_empty 1 earlier, hphase,
    (Scan.literals_run hread.1 hphase).2.trans hfresh.symm, hread.2.1, hstep, hread.2.2, hafter,
    hscan⟩

namespace LeftBy

variable {text line : String} {record : Located Record} {after : List (Located Record)}
  {scan : Scan} {later : List String}

private theorem mem_records (h : LeftBy text record after scan line later) :
    record ∈ (scan.step record.line line).1.records := by
  rw [h.records]
  exact List.mem_singleton_self record

/-- The records behind a record begin where it says. -/
theorem next (h : LeftBy text record after scan line later) :
    firstAddress after (programScan text).context.location =
      record.content.next record.address (freshBefore text record).length := by
  have hbegun := (Scan.phase_of_records h.mem_records).2
  have horderly := (scan.stepped_step record.line line).orderly h.orderly
  have hbehind := (Scan.firstAddress_run horderly hbegun h.later_clean).2
  rw [h.later_records, h.scan_eq] at hbehind
  rw [hbehind, ← h.waiting, h.orderly.length_waitingTexts]
  obtain ⟨hnone, -⟩ | ⟨other, hother, hlocation⟩ := Scan.replay_step h.orderly h.clean
  · rw [h.records] at hnone
    cases hnone
  · rw [h.records] at hother
    obtain rfl := (List.cons.inj hother).1
    exact hlocation

/-- The literals that wait at an LTORG or an END have the addresses from its record on. -/
theorem addressOf? (h : LeftBy text record after scan line later)
    (hplaces : record.content.placesPool = true) {position : Nat} {literal : String}
    (hliteral : (freshBefore text record)[position]? = some literal) :
    (assemble text).context.literals.addressOf? literal = some (record.address + position) := by
  obtain ⟨-, -, -, hplacements⟩ :=
    Scan.placements_step_of_placesPool h.orderly h.mem_records hplaces
  refine (orderly_assemble text).addressOf?_of_mem_placements ?_
  apply (placements_prefix_assemble text).subset
  rw [← h.scan_eq, Scan.placements_run ((scan.stepped_step _ _).orderly h.orderly), hplacements,
    h.waiting]
  refine List.mem_append_left _ (List.mem_append_right _ ?_)
  rw [List.mk_mem_zipIdx_iff_le_and_getElem?_sub, Nat.add_sub_cancel_left]
  exact ⟨Nat.le_add_right _ _, hliteral⟩

/-- An END is the end of its program. -/
private theorem phase_of_isEnd (h : LeftBy text record after scan line later)
    (hend : record.content.isEnd = true) : (programScan text).phase = .ended := by
  have hplaces : record.content.placesPool = true := by
    revert hend
    cases record.content with
    | directive word operand => cases word <;> simp [Record.isEnd, Record.placesPool]
    | declaration word value => simp [Record.isEnd]
    | instruction opcode register reference => simp [Record.isEnd]
  obtain ⟨word, hcontent, hline, -⟩ :=
    Scan.placements_step_of_placesPool h.orderly h.mem_records hplaces
  obtain rfl : word = .finish := by simpa [hcontent, Record.isEnd] using hend
  have hended : (scan.step record.line line).2.phase = .ended :=
    Scan.phase_step_of_finish h.phase hline
  rw [← h.scan_eq, Scan.run_of_ended hended]
  exact hended

end LeftBy

/-- Behind the last record the counter stands where the lines of the program leave it. -/
theorem endAddress_eq {text : String} (hclean : ¬(scanText text {}).1.Failed) :
    endAddress text = (programScan text).context.location := by
  rw [endAddress]
  split_ifs with hend
  · obtain ⟨record, hlast, hisEnd⟩ := (Option.any_eq_true _ _).mp hend
    obtain ⟨before, hrecords⟩ := List.getLast?_eq_some_iff.mp hlast
    obtain ⟨scan, line, later, hleft⟩ := exists_leftBy hclean hrecords
    rw [assemble_context, Scan.finish_eq (orderly_programScan text),
      if_pos (hleft.phase_of_isEnd hisEnd)]
  · rfl

/-- The records of every program that is read without an error replay its location counter. -/
theorem replays_of_not_failed {text : String} (hclean : ¬(scanText text {}).1.Failed) :
    Replays text where
  first := by
    have hread : ¬(Scan.run 1 (programLines text) ⟨.opening, {}⟩).1.Failed :=
      fun hfailed => hclean (Trace.failed_append.mpr (.inl hfailed))
    rw [endAddress_eq hclean, assemble_records, start_assemble]
    exact Scan.firstAddress_run_of_opening LiteralTable.orderly_empty rfl hread
  next before record after hrecords := by
    obtain ⟨scan, line, later, hleft⟩ := exists_leftBy hclean hrecords
    rw [endAddress_eq hclean]
    exact hleft.next
  placed record hmem hplaces position literal hliteral := by
    obtain ⟨before, after, hrecords⟩ := List.append_of_mem hmem
    obtain ⟨scan, line, later, hleft⟩ := exists_leftBy hclean hrecords
    exact hleft.addressOf? hplaces hliteral

/-- A program that places two pools, with an ORIGIN between them. -/
def pooledProgram : String :=
  " START 10\n ='1'\n ADD AREG ='2'\n LTORG\n ORIGIN 50\n ADD AREG ='1'\n SUB AREG ='3'\n END\n"

/-- The second pool has the literal that only the second part of the program uses. -/
theorem replays_pooledProgram :
    ¬(scanText pooledProgram {}).1.Failed ∧
      (assemble pooledProgram).records.map Located.address = [10, 10, 11, 13, 50, 51, 52] ∧
      endAddress pooledProgram = 53 ∧
      freshBefore pooledProgram ⟨8, 52, .directive .finish none⟩ = ["='3'"] ∧
      (assemble pooledProgram).context.literals.addressOf? "='3'" = some 52 := by
  have hclean : ¬(scanText pooledProgram {}).1.Failed := by
    rintro ⟨diagnostic, hmem, herror⟩
    have hnone : ∀ other ∈ (scanText pooledProgram {}).1.diagnostics,
        other.isError = false := by decide +kernel
    rw [hnone diagnostic hmem] at herror
    cases herror
  have hreplays := replays_of_not_failed hclean
  have hrecord : ⟨8, 52, .directive .finish none⟩ ∈ (assemble pooledProgram).records := by
    decide +kernel
  have hfresh : freshBefore pooledProgram ⟨8, 52, .directive .finish none⟩ = ["='3'"] := by
    decide +kernel
  have hsplit : (assemble pooledProgram).records =
      (assemble pooledProgram).records.take 6 ++ ⟨8, 52, .directive .finish none⟩ :: [] := by
    decide +kernel
  refine ⟨hclean, by decide +kernel, ?_, hfresh, ?_⟩
  · have hnext := hreplays.next _ _ _ hsplit
    rw [hfresh] at hnext
    generalize endAddress pooledProgram = behind at hnext ⊢
    exact hnext
  · exact hreplays.placed _ hrecord rfl 0 "='3'" (by rw [hfresh]; rfl)

end Assembler
