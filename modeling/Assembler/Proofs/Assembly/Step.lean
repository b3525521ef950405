import Assembler.Assembly.Scan
import Assembler.Proofs.Assembly.Outcome
import Assembler.Proofs.Assembly.Placement
import Assembler.Proofs.Table.Symbol

/-!
# Steps and runs of the scan

One line of a program is passed over, opens the program with a START, or is executed.  The tables
grow with every line, a name that is bound stays bound, and the literal table stays orderly.  Each
of these facts is proved for one line and carried over to any number of lines.

Every record of a run comes from one line: it carries the number of that line and is the only
record that does.

## Main definitions

* `Scan.Stepped` : the outcomes of one line.
* `Context.Grows` : what no line takes back.
* `Scan.Reached` : the scans that reading programs leads to.

## Main results

* `Scan.stepped_step` : every step has one of the outcomes.
* `Scan.run_induction` : what every line preserves holds after any lines.
* `Scan.grows_run`, `Scan.orderly_run` : growth and order over any lines.
* `Scan.exists_step_of_mem_records`, `Scan.records_run_pairwise` : records and their lines.
-/

namespace Assembler

/-- What one line makes of a scan. -/
inductive Scan.Stepped (scan : Scan) (number : Nat) (line : String) : Trace × Scan → Prop
  | idle (hidle : Text.isBlankText line.toList = true ∨ scan.phase = .ended) :
      Stepped scan number line ({}, scan)
  | opened {label : Option String} {operands : Operands}
      (hblank : Text.isBlankText line.toList = false) (hphase : scan.phase = .opening)
      (hread : SourceLine.ofText line = .ok (.statement ⟨label, .directive .start, operands⟩)) :
      Stepped scan number line (Scan.openWith number label operands scan.context)
  | proceeded {warnings : List Fault} (hblank : Text.isBlankText line.toList = false)
      (hphase : scan.phase ≠ .ended)
      (hwarnings : warnings = if scan.phase = .opening then [.missingStart] else [])
      (hread : scan.phase = .opening → ∀ label operands,
        SourceLine.ofText line ≠ .ok (.statement ⟨label, .directive .start, operands⟩)) :
      Stepped scan number line
        (Scan.proceed number warnings (SourceLine.ofText line) scan.context)

/-- What no line of a program takes back: rows are only added behind the others, no name gets a
second row, and a name that is bound stays bound. -/
structure Context.Grows (old new : Context) : Prop where
  names : old.symbols.names <+: new.symbols.names
  distinct : old.symbols.names.Nodup → new.symbols.names.Nodup
  texts : old.literals.texts <+: new.literals.texts
  bound : ∀ name, (old.symbols.addressOf? name).isSome → (new.symbols.addressOf? name).isSome

namespace Context

theorem Grows.refl (context : Context) : context.Grows context :=
  ⟨List.prefix_rfl, id, List.prefix_rfl, fun _ h => h⟩

theorem Grows.trans {first second third : Context} (h : first.Grows second)
    (h' : second.Grows third) : first.Grows third :=
  ⟨h.names.trans h'.names, h'.distinct ∘ h.distinct, h.texts.trans h'.texts,
    fun name hname => h'.bound name (h.bound name hname)⟩

/-- Tables in which no row changes but for the addresses of literals grow. -/
theorem grows_of_eq {old new : Context} (hsymbols : new.symbols = old.symbols)
    (htexts : new.literals.texts = old.literals.texts) : old.Grows new := by
  refine ⟨?_, ?_, ?_, ?_⟩
  · rw [hsymbols]
  · rw [hsymbols]
    exact id
  · rw [htexts]
  · rw [hsymbols]
    exact fun _ h => h

/-! ### Binding a label -/

theorem bindLabel_start (context : Context) (label? : Option String) (address : Nat) :
    (context.bindLabel label? address).2.start = context.start := by
  cases label? <;> rfl

theorem bindLabel_location (context : Context) (label? : Option String) (address : Nat) :
    (context.bindLabel label? address).2.location = context.location := by
  cases label? <;> rfl

theorem bindLabel_literals (context : Context) (label? : Option String) (address : Nat) :
    (context.bindLabel label? address).2.literals = context.literals := by
  cases label? <;> rfl

theorem orderly_bindLabel {context : Context} (h : context.literals.Orderly)
    (label? : Option String) (address : Nat) :
    (context.bindLabel label? address).2.literals.Orderly := by
  rwa [bindLabel_literals]

private theorem bindName_grows (context : Context) (name : String) (address : Nat) :
    context.Grows (context.bindName name address).2 := by
  refine ⟨?_, ?_, List.prefix_rfl, ?_⟩
  · change _ <+: (context.symbols.define name address).2.names
    rw [SymbolTable.names_define]
    exact SymbolTable.names_prefix_enter _ name
  · intro hdistinct
    change (context.symbols.define name address).2.names.Nodup
    rw [SymbolTable.names_define]
    exact SymbolTable.nodup_names_enter hdistinct name
  · intro other hother
    change ((context.symbols.define name address).2.addressOf? other).isSome
    rw [SymbolTable.addressOf?_define]
    split_ifs
    · rfl
    · exact hother

private theorem bindLabel_grows (context : Context) (label? : Option String) (address : Nat) :
    context.Grows (context.bindLabel label? address).2 := by
  cases label? with
  | none => exact Grows.refl context
  | some label => exact bindName_grows context label address

/-- Mentioning a name in the symbol table. -/
theorem enter_grows (context : Context) (name : String) :
    context.Grows { context with symbols := context.symbols.enter name } := by
  refine ⟨SymbolTable.names_prefix_enter _ name,
    fun hdistinct => SymbolTable.nodup_names_enter hdistinct name, List.prefix_rfl, ?_⟩
  intro other hother
  rw [SymbolTable.addressOf?_enter]
  exact hother

/-! ### Executing a line -/

theorem Referred.grows {context after : Context} {operand? : Option String}
    {reference : Reference} (h : context.Referred operand? reference after) :
    context.Grows after := by
  cases h with
  | absent => exact Grows.refl context
  | literal => exact ⟨List.prefix_rfl, id, LiteralTable.texts_prefix_intern _ _, fun _ h => h⟩
  | constant => exact Grows.refl context
  | symbol => exact enter_grows context _

/-! ### Placing literals -/

/-- Placing literals adds no row. -/
theorem rows_of_placeWith {context placed : Context} (skipped : LiteralTable → Nat)
    (h : context.placeWith (fun table => table.placeAfter (skipped table)) = .ok placed) :
    placed.symbols = context.symbols ∧ placed.literals.texts = context.literals.texts := by
  rw [placeWith] at h
  cases hplace : context.literals.placeAfter (skipped context.literals) context.location with
  | error fault =>
    rw [hplace] at h
    cases h
  | ok result =>
    rw [hplace] at h
    cases hadvance : Location.advance context.location result.1 with
    | error fault => simp [hadvance, Except.map] at h
    | ok next =>
      simp only [hadvance, Except.map] at h
      rw [← Except.ok.inj h]
      exact ⟨rfl, LiteralTable.texts_placeAfter hplace⟩

/-- Ending a program adds no row. -/
theorem rows_of_close {context closed : Context} (h : context.close = .ok closed) :
    closed.symbols = context.symbols ∧ closed.literals.texts = context.literals.texts := by
  rw [close] at h
  split at h
  · cases h
  · rename_i placed hplaced
    obtain ⟨hsymbols, htexts⟩ := rows_of_placeWith LiteralTable.mark hplaced
    obtain ⟨hsymbols', htexts'⟩ := rows_of_placeWith (fun _ => 0) h
    exact ⟨hsymbols'.trans hsymbols, htexts'.trans htexts⟩

/-- No statement that places literals adds a row. -/
theorem rows_of_placing {context placed : Context} {mnemonic : Mnemonic}
    {place : Context → Except Fault Context} (hplacing : mnemonic.placing? = some place)
    (hplaced : place context = .ok placed) :
    placed.symbols = context.symbols ∧ placed.literals.texts = context.literals.texts := by
  unfold Mnemonic.placing? at hplacing
  split at hplacing
  · rw [← Option.some.inj hplacing] at hplaced
    exact rows_of_placeWith LiteralTable.mark hplaced
  · rw [← Option.some.inj hplacing] at hplaced
    exact rows_of_close hplaced
  · cases hplacing

/-- Every statement that places literals places the open pool. -/
theorem placing_eq {context : Context} (h : context.literals.Orderly) {mnemonic : Mnemonic}
    {place : Context → Except Fault Context} (hplacing : mnemonic.placing? = some place) :
    place context = context.placePool := by
  unfold Mnemonic.placing? at hplacing
  split at hplacing
  · rw [← Option.some.inj hplacing]
  · rw [← Option.some.inj hplacing, close_eq_placePool h]
  · exact absurd hplacing (by simp)

/-- Where placing succeeds there is room, and the open pool is placed. -/
theorem eq_poolPlaced_of_placing {context placed : Context} (h : context.literals.Orderly)
    {mnemonic : Mnemonic} {place : Context → Except Fault Context}
    (hplacing : mnemonic.placing? = some place) (hplaced : place context = .ok placed) :
    placed = context.poolPlaced ∧
      context.location + context.literals.openSize ≤ maxAddress := by
  rw [placing_eq h hplacing, placePool_eq h] at hplaced
  split_ifs at hplaced with hroom
  exact ⟨(Except.ok.inj hplaced).symm, hroom⟩

/-- Where placing fails there is no room for the open pool. -/
theorem lt_of_placing_eq_error {context : Context} (h : context.literals.Orderly)
    {mnemonic : Mnemonic} {place : Context → Except Fault Context} {fault : Fault}
    (hplacing : mnemonic.placing? = some place) (hfault : place context = .error fault) :
    maxAddress < context.location + context.literals.openSize := by
  rw [placing_eq h hplacing, placePool_eq h] at hfault
  split_ifs at hfault with hroom
  exact Nat.not_le.mp hroom

theorem Performed.grows {bound after : Context} {statement : Statement}
    {result : Except Fault Record} (h : bound.Performed statement after result) :
    bound.Grows after := by
  cases h with
  | refused => exact Grows.refl bound
  | full => exact Grows.refl bound
  | spoiled => exact grows_of_eq rfl rfl
  | instruction _ _ _ hrefer =>
    have hmoved : bound.Grows { bound with location := bound.location + 1 } := grows_of_eq rfl rfl
    exact hmoved.trans hrefer.grows
  | constant => exact grows_of_eq rfl rfl
  | storage =>
    refine ⟨?_, ?_, List.prefix_rfl, ?_⟩
    · rw [SymbolTable.names_elim_setLength]
    · rw [SymbolTable.names_elim_setLength]
      exact id
    · intro name hname
      rw [SymbolTable.addressOf?_elim_setLength]
      exact hname
  | origin => exact grows_of_eq rfl rfl
  | placed _ hplacing hplaced =>
    obtain ⟨hsymbols, htexts⟩ := rows_of_placing hplacing hplaced
    exact grows_of_eq hsymbols htexts
  | unplaced => exact Grows.refl bound

theorem Referred.orderly {context after : Context} {operand? : Option String}
    {reference : Reference} (h : context.Referred operand? reference after)
    (horderly : context.literals.Orderly) : after.literals.Orderly := by
  cases h with
  | absent => exact horderly
  | literal => exact horderly.intern _
  | constant => exact horderly
  | symbol => exact horderly

theorem Performed.orderly {bound after : Context} {statement : Statement}
    {result : Except Fault Record} (h : bound.Performed statement after result)
    (horderly : bound.literals.Orderly) : after.literals.Orderly := by
  cases h with
  | refused => exact horderly
  | full => exact horderly
  | spoiled => exact horderly
  | instruction _ _ _ hrefer => exact hrefer.orderly horderly
  | constant => exact horderly
  | storage => exact horderly
  | origin => exact horderly
  | placed _ hplacing hplaced =>
    rw [(eq_poolPlaced_of_placing horderly hplacing hplaced).1]
    exact horderly.placeRest _
  | unplaced => exact horderly

theorem Executed.grows {context : Context} {source : Except Fault SourceLine} {effect : Effect}
    (h : context.Executed source effect) : context.Grows effect.context := by
  cases h with
  | unread => exact Grows.refl context
  | literal text =>
    exact ⟨List.prefix_rfl, id, LiteralTable.texts_prefix_intern _ text, fun _ h => h⟩
  | performed _ hresult =>
    exact (bindLabel_grows context _ _).trans hresult.grows
  | incomplete => exact Grows.refl context
  | valueless => exact enter_grows context _
  | equated => exact bindName_grows context _ _

theorem Executed.orderly {context : Context} {source : Except Fault SourceLine} {effect : Effect}
    (h : context.Executed source effect) (horderly : context.literals.Orderly) :
    effect.context.literals.Orderly := by
  cases h with
  | unread => exact horderly
  | literal text => exact horderly.intern text
  | performed _ hresult => exact hresult.orderly (orderly_bindLabel horderly _ _)
  | incomplete => exact horderly
  | valueless => exact horderly
  | equated => exact horderly

end Context

namespace Scan

/-! ### One line -/

/-- Every step has one of the outcomes. -/
theorem stepped_step (scan : Scan) (number : Nat) (line : String) :
    scan.Stepped number line (scan.step number line) := by
  rw [step]
  split_ifs with hblank
  · exact .idle (.inl hblank)
  · have hline : Text.isBlankText line.toList = false := by simpa using hblank
    cases hphase : scan.phase with
    | ended => exact .idle (.inr hphase)
    | body =>
      exact .proceeded hline (by simp [hphase]) (by simp [hphase]) (by simp [hphase])
    | opening =>
      dsimp only
      rw [begin]
      cases hstart : (SourceLine.ofText line).toOption.bind SourceLine.start? with
      | none =>
        refine .proceeded hline (by simp [hphase]) (by simp [hphase]) ?_
        intro _ label operands hread
        simp [hread, Except.toOption, SourceLine.start?] at hstart
      | some opening =>
        obtain ⟨label, operands⟩ := opening
        refine .opened hline hphase ?_
        cases hread : SourceLine.ofText line with
        | error fault => simp [hread, Except.toOption] at hstart
        | ok source =>
          cases source with
          | literal text => simp [hread, Except.toOption, SourceLine.start?] at hstart
          | statement content =>
            obtain ⟨label', mnemonic, operands'⟩ := content
            simp only [hread, Except.toOption, Option.bind_some, SourceLine.start?] at hstart
            split_ifs at hstart with hmnemonic
            obtain ⟨rfl, rfl⟩ := Prod.mk.inj (Option.some.inj hstart)
            rw [hmnemonic]

private theorem openWith_grows (number : Nat) (label : Option String) (operands : Operands)
    (context : Context) : context.Grows (openWith number label operands context).2.context := by
  rw [openWith]
  refine Context.Grows.trans ?_ (Context.bindLabel_grows _ label _)
  exact Context.grows_of_eq rfl rfl

variable {scan : Scan} {number : Nat} {line : String} {outcome : Trace × Scan}

theorem Stepped.grows (h : scan.Stepped number line outcome) :
    scan.context.Grows outcome.2.context := by
  cases h with
  | idle => exact Context.Grows.refl _
  | opened => exact openWith_grows number _ _ _
  | proceeded => exact (Context.executed_execute _ _).grows

theorem Stepped.orderly (h : scan.Stepped number line outcome)
    (horderly : scan.context.literals.Orderly) : outcome.2.context.literals.Orderly := by
  cases h with
  | idle => exact horderly
  | opened =>
    rw [openWith]
    dsimp only
    rwa [Context.bindLabel_literals]
  | proceeded => exact (Context.executed_execute _ _).orderly horderly

/-- A line leaves at most one record, which carries the number of the line. -/
theorem Stepped.records (h : scan.Stepped number line outcome) :
    outcome.1.records = [] ∨ ∃ record, outcome.1.records = [record] ∧ record.line = number := by
  cases h with
  | idle => exact .inl rfl
  | opened => exact .inr ⟨_, rfl, rfl⟩
  | proceeded =>
    dsimp only [proceed]
    cases (scan.context.execute (SourceLine.ofText line)).result with
    | error fault => exact .inl rfl
    | ok record? =>
      cases record? with
      | none => exact .inl rfl
      | some record => exact .inr ⟨_, rfl, rfl⟩

/-! ### Any lines -/

theorem run_cons (number : Nat) (line : String) (rest : List String) (scan : Scan) :
    run number (line :: rest) scan =
      ((scan.step number line).1.append (run (number + 1) rest (scan.step number line).2).1,
        (run (number + 1) rest (scan.step number line).2).2) :=
  rfl

/-- Nothing is read after the END. -/
theorem run_of_ended (hphase : scan.phase = .ended) (number : Nat) (lines : List String) :
    run number lines scan = ({}, scan) := by
  induction lines generalizing number with
  | nil => rfl
  | cons line rest ih =>
    have hstep : scan.step number line = ({}, scan) := by
      rw [step, hphase]
      exact ite_self _
    rw [run_cons, hstep, ih (number + 1)]
    rfl

/-- What every line preserves holds after any lines, together with what they left behind. -/
theorem run_induction {motive : Trace → Scan → Prop} (number : Nat) (lines : List String)
    (earlier : Trace) {scan : Scan} (hstart : motive earlier scan)
    (hstep : ∀ trace next place line, motive trace next →
      motive (trace.append (next.step place line).1) (next.step place line).2) :
    motive (earlier.append (run number lines scan).1) (run number lines scan).2 := by
  induction lines generalizing number earlier scan with
  | nil =>
    have hnil : earlier.append {} = earlier := by simp [Trace.append]
    rwa [run, hnil]
  | cons line rest ih =>
    rw [run, ← Trace.append_assoc]
    exact ih (number + 1) _ (hstep earlier scan number line hstart)

theorem orderly_run (h : scan.context.literals.Orderly) (number : Nat) (lines : List String) :
    (run number lines scan).2.context.literals.Orderly := by
  have hrun := run_induction (motive := fun _ next => next.context.literals.Orderly) number lines
    {} h fun _ next place line hnext => (next.stepped_step place line).orderly hnext
  exact hrun

theorem grows_run (number : Nat) (lines : List String) (scan : Scan) :
    scan.context.Grows (run number lines scan).2.context := by
  induction lines generalizing number scan with
  | nil => exact Context.Grows.refl _
  | cons line rest ih => exact (scan.stepped_step number line).grows.trans (ih (number + 1) _)

theorem finish_of_close_eq_ok {closed : Context} (hphase : scan.phase ≠ .ended)
    (h : scan.context.close = .ok closed) (count : Nat) :
    scan.finish count = (⟨[], [⟨count, .warning, .missingEnd⟩]⟩, closed) := by
  rw [finish, h]
  split
  · rename_i hended
    exact absurd hended hphase
  · rfl

theorem finish_of_close_eq_error {fault : Fault} (hphase : scan.phase ≠ .ended)
    (h : scan.context.close = .error fault) (count : Nat) :
    scan.finish count =
      (⟨[], [⟨count, .warning, .missingEnd⟩, ⟨count, .error, fault⟩]⟩, scan.context) := by
  rw [finish, h]
  split
  · rename_i hended
    exact absurd hended hphase
  · rfl

/-- The end of a program adds no row. -/
theorem rows_finish (scan : Scan) (count : Nat) :
    (scan.finish count).2.symbols = scan.context.symbols ∧
      (scan.finish count).2.literals.texts = scan.context.literals.texts := by
  by_cases hphase : scan.phase = .ended
  · rw [finish, hphase]
    exact ⟨rfl, rfl⟩
  · cases hclose : scan.context.close with
    | ok closed =>
      rw [finish_of_close_eq_ok hphase hclose]
      exact Context.rows_of_close hclose
    | error fault =>
      rw [finish_of_close_eq_error hphase hclose]
      exact ⟨rfl, rfl⟩

/-- The end of a program loses nothing that is known. -/
theorem grows_finish (scan : Scan) (count : Nat) :
    scan.context.Grows (scan.finish count).2 := by
  obtain ⟨hsymbols, htexts⟩ := scan.rows_finish count
  exact Context.grows_of_eq hsymbols htexts

/-- The end of a program leaves no record. -/
theorem records_finish (scan : Scan) (count : Nat) : (scan.finish count).1.records = [] := by
  by_cases hphase : scan.phase = .ended
  · rw [finish, hphase]
  · cases hclose : scan.context.close with
    | ok closed => rw [finish_of_close_eq_ok hphase hclose]
    | error fault => rw [finish_of_close_eq_error hphase hclose]

/-- What the end of a program does, where no END has been read: the open pool is placed if there
is room for it. -/
theorem finish_eq (h : scan.context.literals.Orderly) (count : Nat) :
    scan.finish count =
      if scan.phase = .ended then ({}, scan.context)
      else if scan.context.location + scan.context.literals.openSize ≤ maxAddress then
        (⟨[], [⟨count, .warning, .missingEnd⟩]⟩, scan.context.poolPlaced)
      else
        (⟨[], [⟨count, .warning, .missingEnd⟩,
          ⟨count, .error,
            .locationOverflow scan.context.location scan.context.literals.openSize⟩]⟩,
          scan.context) := by
  have hclose := (Context.close_eq_placePool h).trans (Context.placePool_eq h)
  by_cases hphase : scan.phase = .ended
  · rw [finish, if_pos hphase, hphase]
  · rw [if_neg hphase]
    split_ifs with hroom
    · rw [if_pos hroom] at hclose
      exact finish_of_close_eq_ok hphase hclose count
    · rw [if_neg hroom] at hclose
      exact finish_of_close_eq_error hphase hclose count

/-! ### Reached scans -/

/-- A scan that reading programs leads to.  A program may be read in the context that another one
left behind, and the first of them is read in an empty context. -/
inductive Reached : Scan → Prop
  | fresh : Reached ⟨.opening, {}⟩
  | line {scan : Scan} (h : Reached scan) (number : Nat) (line : String) :
      Reached (scan.step number line).2
  | program {scan : Scan} (h : Reached scan) (count : Nat) :
      Reached ⟨.opening, (scan.finish count).2⟩

/-- The literal table of a reached scan is orderly. -/
theorem Reached.orderly (h : scan.Reached) : scan.context.literals.Orderly := by
  induction h with
  | fresh => exact LiteralTable.orderly_empty
  | line _ number line ih => exact (stepped_step _ number line).orderly ih
  | program _ count ih =>
    rw [finish_eq ih]
    split_ifs
    · exact ih
    · exact ih.placeRest _
    · exact ih

/-! ### Records and their lines -/

theorem line_of_mem_records_step {record : Located Record}
    (h : record ∈ (scan.step number line).1.records) :
    record.line = number := by
  obtain hnone | ⟨other, hother, hline⟩ := (scan.stepped_step number line).records
  · rw [hnone] at h
    exact absurd h List.not_mem_nil
  · rw [hother] at h
    rwa [List.mem_singleton.mp h]

/-- The records of a run carry the numbers of its lines. -/
private theorem line_mem_of_mem_records {lines : List String} {record : Located Record}
    (h : record ∈ (run number lines scan).1.records) :
    number ≤ record.line ∧ record.line < number + lines.length := by
  induction lines generalizing number scan with
  | nil => exact absurd h List.not_mem_nil
  | cons line rest ih =>
    rw [List.length_cons]
    rcases List.mem_append.mp h with hfirst | hrest
    · have hline := line_of_mem_records_step hfirst
      omega
    · have hlines := ih hrest
      omega

/-- The numbers of the records of a run increase. -/
theorem records_run_pairwise (number : Nat) (lines : List String) (scan : Scan) :
    (run number lines scan).1.records.Pairwise fun earlier later =>
      earlier.line < later.line := by
  induction lines generalizing number scan with
  | nil => exact List.Pairwise.nil
  | cons line rest ih =>
    change ((scan.step number line).1.records ++ _).Pairwise _
    rw [List.pairwise_append]
    refine ⟨?_, ih (number + 1) _, ?_⟩
    · obtain hnone | ⟨record, hrecord, -⟩ := (scan.stepped_step number line).records
      · rw [hnone]
        exact List.Pairwise.nil
      · rw [hrecord]
        exact List.pairwise_singleton _ _
    · intro earlier hearlier later hlater
      rw [line_of_mem_records_step hearlier]
      exact (line_mem_of_mem_records hlater).1

/-- A record of a run was left by the line that it carries the number of. -/
theorem exists_step_of_mem_records {lines : List String} {record : Located Record}
    (h : record ∈ (run number lines scan).1.records) :
    ∃ before line after, lines = before ++ line :: after ∧
      record.line = number + before.length ∧
      record ∈ ((run number before scan).2.step (number + before.length) line).1.records := by
  induction lines generalizing number scan with
  | nil => exact absurd h List.not_mem_nil
  | cons line rest ih =>
    rcases List.mem_append.mp h with hfirst | hrest
    · exact ⟨[], line, rest, rfl, line_of_mem_records_step hfirst, hfirst⟩
    · obtain ⟨before, other, after, hlines, hline, hstep⟩ := ih hrest
      have hlength : number + 1 + before.length = number + (line :: before).length := by
        rw [List.length_cons]
        omega
      refine ⟨line :: before, other, after, by rw [hlines]; rfl, ?_, ?_⟩
      · rw [hline, hlength]
      · rw [← hlength]
        exact hstep

end Scan

end Assembler
