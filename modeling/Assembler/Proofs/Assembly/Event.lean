import Assembler.Assembly.Program
import Assembler.Proofs.Assembly.Step
import Mathlib.Data.List.TakeWhile

/-!
# Bindings and placements

A program gives addresses to names and to literals.  A name is bound by the label of a statement,
to the location counter before it; by the label of an opening START, to the address of the program;
and by the label of an equation that has a value, to that value.  Literals are placed by LTORG, by
END, and by the end of a program without END: those that wait get consecutive addresses from the
location counter on, if there is room for all of them.

These events are listed line by line, without reference to how the tables record them.  The tables
record them faithfully: the address of a symbol is that of its last binding, and the placed
literals in order are the placements in order.

## Main definitions

* `Scan.bindings`, `Scan.placements` : the events of a line.
* `programBindings`, `programPlacements` : the events of a program.
* `lastBinding?` : the address of the last binding of a name.

## Main results

* `addressOf?_assemble` : a symbol has the address of its last binding.
* `placements_assemble` : the placed literals are the placements.
-/

namespace Assembler

/-! ### Events -/

/-- The binding that a statement makes in a context, unless it is the START of its program. -/
def Statement.binding? (statement : Statement) (context : Context) : Option (String × Nat) :=
  match statement.label with
  | none => none
  | some label =>
    match statement.mnemonic with
    | .directive .equ =>
      match statement.operands.first? with
      | none => none
      | some operand =>
        (Expression.evaluate .equ operand context.symbols).toOption.map fun value => (label, value)
    | _ => some (label, context.location)

namespace Context

/-- The bindings that a source line makes: one at most. -/
def bindings (context : Context) : Except Fault SourceLine → List (String × Nat)
  | .ok (.statement statement) => (statement.binding? context).toList
  | _ => []

/-- The literals that wait, with the addresses that placing them here would give them.  Without
room for all of them none is placed. -/
def due (context : Context) : List (String × Nat) :=
  let waiting := context.literals.waitingTexts
  if context.location + waiting.length ≤ maxAddress then waiting.zipIdx context.location else []

/-- The literals that a source line places, with their addresses. -/
def placements (context : Context) : Except Fault SourceLine → List (String × Nat)
  | .ok (.statement statement) =>
    if statement.mnemonic = .directive .ltorg ∨ statement.mnemonic = .directive .finish then
      context.due
    else []
  | _ => []

end Context

namespace Scan

/-- The bindings that a line makes where the scan stands. -/
def bindings (scan : Scan) (line : String) : List (String × Nat) :=
  let source := SourceLine.ofText line
  match scan.phase with
  | .ended => []
  | .body => scan.context.bindings source
  | .opening =>
    match source.toOption.bind SourceLine.start? with
    | some (label, operands) =>
      (label.map fun name => (name, (startAddress operands).2)).toList
    | none => scan.context.bindings source

/-- The literals that a line places where the scan stands. -/
def placements (scan : Scan) (line : String) : List (String × Nat) :=
  match scan.phase with
  | .ended => []
  | _ => scan.context.placements (SourceLine.ofText line)

/-- What is observed of lines in order, each where the scan stands by then. -/
def collect {α : Type} (observe : Scan → String → List α) (number : Nat) :
    List String → Scan → List α
  | [], _ => []
  | line :: rest, scan =>
    observe scan line ++ collect observe (number + 1) rest (scan.step number line).2

end Scan

/-- The lines of a program. -/
def programLines (text : String) : List String :=
  (Text.lines text.toList).map String.ofList

/-- The scan after all lines of a program. -/
def programScan (text : String) : Scan :=
  (Scan.run 1 (programLines text) ⟨.opening, {}⟩).2

/-- The bindings of a program in order. -/
def programBindings (text : String) : List (String × Nat) :=
  Scan.collect Scan.bindings 1 (programLines text) ⟨.opening, {}⟩

/-- The placements of a program in order, those at the end of a program without END included. -/
def programPlacements (text : String) : List (String × Nat) :=
  Scan.collect Scan.placements 1 (programLines text) ⟨.opening, {}⟩ ++
    if (programScan text).phase = .ended then [] else (programScan text).context.due

/-- The address of the last binding of a name. -/
def lastBinding? (bindings : List (String × Nat)) (name : String) : Option Nat :=
  bindings.reverse.lookup name

theorem lastBinding?_append (earlier later : List (String × Nat)) (name : String) :
    lastBinding? (earlier ++ later) name =
      (lastBinding? later name).or (lastBinding? earlier name) := by
  rw [lastBinding?, List.reverse_append, List.lookup_append]
  rfl

theorem lastBinding?_singleton (name other : String) (address : Nat) :
    lastBinding? [(name, address)] other = if other = name then some address else none := by
  rw [lastBinding?, List.reverse_singleton, List.lookup_cons, List.lookup_nil]
  by_cases h : other = name
  · rw [if_pos h, beq_iff_eq.mpr h]
  · rw [if_neg h, beq_eq_false_iff_ne.mpr h]

/-- A blank line holds no source line. -/
theorem SourceLine.ofText_of_isBlankText {line : String}
    (h : Text.isBlankText line.toList = true) :
    SourceLine.ofText line = .error (.malformed .empty) := by
  have hfront : Text.trimFront line.toList = [] := by
    rw [Text.trimFront, List.dropWhile_eq_nil_iff]
    exact List.all_eq_true.mp h
  have htrim : Text.trim line.toList = [] := by
    rw [Text.trim, hfront]
    rfl
  rw [SourceLine.ofText, htrim]
  rfl

/-! ### Symbols have their last bindings -/

/-- A statement other than an equation binds its label to the location counter. -/
theorem Statement.binding?_of_ne_equ {statement : Statement} (context : Context)
    (hmnemonic : statement.mnemonic ≠ .directive .equ) :
    statement.binding? context = statement.label.map fun label => (label, context.location) := by
  rw [Statement.binding?]
  cases statement.label with
  | none => rfl
  | some label =>
    dsimp only
    split
    · rename_i hequ
      exact absurd hequ hmnemonic
    · rfl

namespace Context

theorem addressOf?_bindName (context : Context) (name other : String) (address : Nat) :
    (context.bindName name address).2.symbols.addressOf? other =
      (lastBinding? [(name, address)] other).or (context.symbols.addressOf? other) := by
  change (context.symbols.define name address).2.addressOf? other = _
  rw [SymbolTable.addressOf?_define, lastBinding?_singleton]
  split_ifs <;> rfl

theorem addressOf?_bindLabel (context : Context) (label? : Option String) (address : Nat)
    (other : String) :
    (context.bindLabel label? address).2.symbols.addressOf? other =
      (lastBinding? (label?.map fun label => (label, address)).toList other).or
        (context.symbols.addressOf? other) := by
  cases label? with
  | none => rfl
  | some label => exact addressOf?_bindName context label other address

theorem Referred.addressOf? {context after : Context} {operand? : Option String}
    {reference : Reference} (h : context.Referred operand? reference after) (name : String) :
    after.symbols.addressOf? name = context.symbols.addressOf? name := by
  cases h with
  | absent => rfl
  | literal => rfl
  | constant => rfl
  | symbol => exact SymbolTable.addressOf?_enter _ _ _

/-- Performing a statement changes no address. -/
theorem Performed.addressOf? {bound after : Context} {statement : Statement}
    {result : Except Fault Record} (h : bound.Performed statement after result)
    (horderly : bound.literals.Orderly) (name : String) :
    after.symbols.addressOf? name = bound.symbols.addressOf? name := by
  cases h with
  | refused => rfl
  | full => rfl
  | spoiled => rfl
  | instruction _ _ _ hrefer => exact hrefer.addressOf? name
  | constant => rfl
  | storage =>
    exact SymbolTable.addressOf?_elim_setLength _ _ _ _
  | origin => rfl
  | placed _ hplacing hplaced =>
    rw [(eq_poolPlaced_of_placing horderly hplacing hplaced).1]
    rfl
  | unplaced => rfl

/-- The bindings of a source line are what it does to addresses. -/
theorem Executed.addressOf? {context : Context} {source : Except Fault SourceLine}
    {effect : Effect} (h : context.Executed source effect)
    (horderly : context.literals.Orderly) (name : String) :
    effect.context.symbols.addressOf? name =
      (lastBinding? (context.bindings source) name).or (context.symbols.addressOf? name) := by
  cases h with
  | unread => rfl
  | literal => rfl
  | @performed statement after result hmnemonic hresult =>
    rw [hresult.addressOf? (orderly_bindLabel horderly _ _), addressOf?_bindLabel]
    simp only [bindings, statement.binding?_of_ne_equ context hmnemonic]
  | @incomplete statement fault hmnemonic hparts =>
    have hnone : statement.binding? context = none := by
      obtain hlabel | hoperand := hparts
      · rw [Statement.binding?, hlabel]
      · rw [Statement.binding?, hmnemonic, hoperand]
        cases statement.label <;> rfl
    simp only [bindings, hnone]
    rfl
  | @valueless statement label operand fault hmnemonic hlabel hoperand hvalue =>
    have hnone : statement.binding? context = none := by
      simp [Statement.binding?, hlabel, hmnemonic, hoperand, hvalue, Except.toOption]
    rw [SymbolTable.addressOf?_enter]
    simp only [bindings, hnone]
    rfl
  | @equated statement label operand value hmnemonic hlabel hoperand hvalue =>
    have hsome : statement.binding? context = some (label, value) := by
      simp [Statement.binding?, hlabel, hmnemonic, hoperand, hvalue, Except.toOption]
    rw [addressOf?_bindName]
    simp only [bindings, hsome]
    rfl

end Context

namespace Scan

variable {scan : Scan} {number : Nat} {line : String} {outcome : Trace × Scan}

theorem start?_of_ofText {label : Option String} {operands : Operands}
    (hread : SourceLine.ofText line = .ok (.statement ⟨label, .directive .start, operands⟩)) :
    (SourceLine.ofText line).toOption.bind SourceLine.start? = some (label, operands) := by
  rw [hread]
  rfl

private theorem start?_eq_none (hread : ∀ label operands,
    SourceLine.ofText line ≠ .ok (.statement ⟨label, .directive .start, operands⟩)) :
    (SourceLine.ofText line).toOption.bind SourceLine.start? = none := by
  cases hsource : SourceLine.ofText line with
  | error fault => rfl
  | ok source =>
    cases source with
    | literal text => rfl
    | statement content =>
      obtain ⟨label, mnemonic, operands⟩ := content
      have hmnemonic : mnemonic ≠ .directive .start := by
        rintro rfl
        exact hread label operands hsource
      simp [Except.toOption, SourceLine.start?, hmnemonic]

theorem bindings_of_idle
    (hidle : Text.isBlankText line.toList = true ∨ scan.phase = .ended) :
    scan.bindings line = [] := by
  rw [bindings]
  obtain hblank | hended := hidle
  · rw [SourceLine.ofText_of_isBlankText hblank]
    cases scan.phase <;> rfl
  · rw [hended]

theorem bindings_of_proceeded (hphase : scan.phase ≠ .ended)
    (hread : scan.phase = .opening → ∀ label operands,
      SourceLine.ofText line ≠ .ok (.statement ⟨label, .directive .start, operands⟩)) :
    scan.bindings line = scan.context.bindings (SourceLine.ofText line) := by
  rw [bindings]
  cases hopening : scan.phase with
  | ended => exact absurd hopening hphase
  | body => rfl
  | opening =>
    dsimp only
    rw [start?_eq_none (hread hopening)]

/-- The bindings of a line are what it does to addresses. -/
theorem Stepped.addressOf? (h : scan.Stepped number line outcome)
    (horderly : scan.context.literals.Orderly) (name : String) :
    outcome.2.context.symbols.addressOf? name =
      (lastBinding? (scan.bindings line) name).or (scan.context.symbols.addressOf? name) := by
  cases h with
  | idle hidle =>
    rw [bindings_of_idle hidle]
    rfl
  | @opened label operands _ hphase hread =>
    have hbindings : scan.bindings line =
        (label.map fun name => (name, (startAddress operands).2)).toList := by
      rw [bindings, hphase]
      dsimp only
      rw [start?_of_ofText hread]
    rw [hbindings]
    exact Context.addressOf?_bindLabel _ label _ name
  | proceeded _ hphase _ hread =>
    rw [bindings_of_proceeded hphase hread]
    exact (Context.executed_execute _ _).addressOf? horderly name

private theorem addressOf?_run (horderly : scan.context.literals.Orderly) (number : Nat)
    (lines : List String) (name : String) :
    (run number lines scan).2.context.symbols.addressOf? name =
      (lastBinding? (collect bindings number lines scan) name).or
        (scan.context.symbols.addressOf? name) := by
  induction lines generalizing number scan with
  | nil => rfl
  | cons line rest ih =>
    have hline := scan.stepped_step number line
    change (run (number + 1) rest (scan.step number line).2).2.context.symbols.addressOf? name = _
    rw [ih (hline.orderly horderly), hline.addressOf? horderly, collect, lastBinding?_append,
      Option.or_assoc]

end Scan

/-! ### Placed literals are the placements -/

/-- The statements that place literals are LTORG and END. -/
theorem Mnemonic.placing?_eq_none_iff {mnemonic : Mnemonic} :
    mnemonic.placing? = none ↔
      ¬(mnemonic = .directive .ltorg ∨ mnemonic = .directive .finish) := by
  cases mnemonic with
  | directive word => cases word <;> simp [placing?]
  | declaration word => simp [placing?]
  | operation opcode => simp [placing?]

/-- No statement both takes a word and places literals. -/
theorem Mnemonic.placing?_of_takesWord {mnemonic : Mnemonic} (h : mnemonic.takesWord = true) :
    mnemonic.placing? = none := by
  cases mnemonic with
  | directive word => exact absurd h (by simp [takesWord])
  | declaration word => rfl
  | operation opcode => rfl

namespace Context

private theorem due_bindLabel (context : Context) (label? : Option String) (address : Nat) :
    (context.bindLabel label? address).2.due = context.due := by
  rw [due, due, bindLabel_literals, bindLabel_location]

/-- Binding a label places nothing and puts off no placement. -/
theorem placements_bindLabel (context : Context) (label? : Option String) (address : Nat)
    (source : Except Fault SourceLine) :
    (context.bindLabel label? address).2.placements source = context.placements source := by
  unfold placements
  split
  · rw [due_bindLabel]
  · rfl

theorem due_eq {context : Context} (h : context.literals.Orderly) :
    context.due =
      if context.location + context.literals.openSize ≤ maxAddress then
        context.literals.waitingTexts.zipIdx context.location
      else [] := by
  rw [due, h.length_waitingTexts]

theorem placements_poolPlaced {context : Context} (h : context.literals.Orderly)
    (hroom : context.location + context.literals.openSize ≤ maxAddress) :
    context.poolPlaced.literals.placements = context.literals.placements ++ context.due := by
  rw [due_eq h, if_pos hroom]
  exact h.placements_placeRest _

theorem Referred.placements {context after : Context} {operand? : Option String}
    {reference : Reference} (h : context.Referred operand? reference after) :
    after.literals.placements = context.literals.placements := by
  cases h with
  | absent => rfl
  | literal => exact LiteralTable.placements_intern _ _
  | constant => rfl
  | symbol => rfl

/-- A statement that is neither LTORG nor END places nothing. -/
theorem placements_eq_nil {context : Context} {statement : Statement}
    (h : statement.mnemonic.placing? = none) :
    context.placements (.ok (.statement statement)) = [] :=
  if_neg (Mnemonic.placing?_eq_none_iff.mp h)

theorem placements_eq_due {context : Context} {statement : Statement}
    {place : Context → Except Fault Context} (h : statement.mnemonic.placing? = some place) :
    context.placements (.ok (.statement statement)) = context.due := by
  have hplaces : statement.mnemonic = .directive .ltorg ∨
      statement.mnemonic = .directive .finish := by
    by_contra hneither
    rw [← Mnemonic.placing?_eq_none_iff, h] at hneither
    exact absurd hneither (by simp)
  exact if_pos hplaces

theorem Performed.placements {bound after : Context} {statement : Statement}
    {result : Except Fault Record} (h : bound.Performed statement after result)
    (horderly : bound.literals.Orderly) :
    after.literals.placements =
      bound.literals.placements ++ bound.placements (.ok (.statement statement)) := by
  cases h with
  | refused _ _ hplacing => rw [placements_eq_nil hplacing, List.append_nil]
  | full _ hword =>
    rw [placements_eq_nil (Mnemonic.placing?_of_takesWord hword), List.append_nil]
  | spoiled _ hword =>
    rw [placements_eq_nil (Mnemonic.placing?_of_takesWord hword), List.append_nil]
  | instruction hmnemonic _ _ hrefer =>
    rw [hrefer.placements, placements_eq_nil (by rw [hmnemonic]; rfl), List.append_nil]
  | constant hmnemonic => rw [placements_eq_nil (by rw [hmnemonic]; rfl), List.append_nil]
  | storage hmnemonic => rw [placements_eq_nil (by rw [hmnemonic]; rfl), List.append_nil]
  | origin hmnemonic => rw [placements_eq_nil (by rw [hmnemonic]; rfl), List.append_nil]
  | placed hmnemonic hplacing hplaced =>
    obtain ⟨rfl, hroom⟩ := eq_poolPlaced_of_placing horderly hplacing hplaced
    rw [← hmnemonic] at hplacing
    rw [placements_poolPlaced horderly hroom, placements_eq_due hplacing]
  | unplaced hmnemonic hplacing hfault =>
    have hfull := lt_of_placing_eq_error horderly hplacing hfault
    rw [← hmnemonic] at hplacing
    rw [placements_eq_due hplacing, due_eq horderly, if_neg (Nat.not_le.mpr hfull),
      List.append_nil]

/-- The placements of a source line come behind the earlier ones. -/
theorem Executed.placements {context : Context} {source : Except Fault SourceLine}
    {effect : Effect} (h : context.Executed source effect)
    (horderly : context.literals.Orderly) :
    effect.context.literals.placements =
      context.literals.placements ++ context.placements source := by
  -- an equation places nothing
  have hequ {statement : Statement} (hmnemonic : statement.mnemonic = .directive .equ) :
      context.placements (.ok (.statement statement)) = [] :=
    if_neg (by simp [hmnemonic])
  cases h with
  | unread => exact (List.append_nil _).symm
  | literal text =>
    rw [LiteralTable.placements_intern]
    exact (List.append_nil _).symm
  | @performed statement after result _ hresult =>
    rw [hresult.placements (orderly_bindLabel horderly _ _), bindLabel_literals,
      placements_bindLabel]
  | incomplete _ hmnemonic => rw [hequ hmnemonic, List.append_nil]
  | valueless hmnemonic => rw [hequ hmnemonic, List.append_nil]
  | equated hmnemonic =>
    rw [hequ hmnemonic, List.append_nil]
    rfl

end Context

namespace Scan

variable {scan : Scan} {number : Nat} {line : String} {outcome : Trace × Scan}

theorem Stepped.placements (h : scan.Stepped number line outcome)
    (horderly : scan.context.literals.Orderly) :
    outcome.2.context.literals.placements =
      scan.context.literals.placements ++ scan.placements line := by
  cases h with
  | idle hidle =>
    have hnone : scan.placements line = [] := by
      rw [Scan.placements]
      obtain hblank | hended := hidle
      · rw [SourceLine.ofText_of_isBlankText hblank]
        cases scan.phase <;> rfl
      · rw [hended]
    rw [hnone, List.append_nil]
  | @opened label operands _ hphase hread =>
    have hnone : scan.placements line = [] := by
      rw [Scan.placements, hphase, hread]
      rfl
    rw [hnone, List.append_nil, openWith]
    dsimp only
    rw [Context.bindLabel_literals]
  | proceeded _ hphase =>
    have hline : scan.placements line =
        scan.context.placements (SourceLine.ofText line) := by
      rw [Scan.placements]
      cases hopening : scan.phase with
      | ended => exact absurd hopening hphase
      | body => rfl
      | opening => rfl
    rw [hline]
    exact (Context.executed_execute _ _).placements horderly

theorem placements_run (horderly : scan.context.literals.Orderly) (number : Nat)
    (lines : List String) :
    (run number lines scan).2.context.literals.placements =
      scan.context.literals.placements ++ collect Scan.placements number lines scan := by
  induction lines generalizing number scan with
  | nil => exact (List.append_nil _).symm
  | cons line rest ih =>
    have hline := scan.stepped_step number line
    change (run (number + 1) rest
      (scan.step number line).2).2.context.literals.placements = _
    rw [ih (hline.orderly horderly), hline.placements horderly, List.append_assoc]
    rfl

end Scan

/-! ### Whole programs -/

theorem assemble_context (text : String) :
    (assemble text).context = ((programScan text).finish (programLines text).length).2 :=
  rfl

/-- What is reported of the reading of a program: what its lines report, and then its end. -/
theorem scanText_diagnostics (text : String) :
    (scanText text {}).1.diagnostics =
      (Scan.run 1 (programLines text) ⟨.opening, {}⟩).1.diagnostics ++
        ((programScan text).finish (programLines text).length).1.diagnostics :=
  rfl

/-- What is reported of a program: what its reading reports, and then its encoding. -/
theorem assemble_diagnostics (text : String) :
    (assemble text).diagnostics = (scanText text {}).1.diagnostics ++
      ((assemble text).context.image (assemble text).records).diagnostics :=
  rfl

theorem orderly_programScan (text : String) : (programScan text).context.literals.Orderly :=
  Scan.orderly_run LiteralTable.orderly_empty 1 (programLines text)

/-- The end of a program leaves no record. -/
theorem assemble_records (text : String) :
    (assemble text).records = (Scan.run 1 (programLines text) ⟨.opening, {}⟩).1.records := by
  change _ ++ ((programScan text).finish (programLines text).length).1.records = _
  rw [Scan.records_finish, List.append_nil]
  rfl

/-- The lines of the records of a program increase. -/
theorem records_assemble_pairwise (text : String) :
    (assemble text).records.Pairwise fun earlier later => earlier.line < later.line := by
  rw [assemble_records]
  exact Scan.records_run_pairwise 1 (programLines text) _

/-- What is known of a program in the end has grown from what its lines made known. -/
theorem grows_assemble (text : String) :
    (programScan text).context.Grows (assemble text).context :=
  Scan.grows_finish (programScan text) (programLines text).length

/-- No name has two rows in the end. -/
theorem nodup_names_assemble (text : String) :
    (assemble text).context.symbols.names.Nodup := by
  have hrun : Context.Grows {} (programScan text).context :=
    Scan.grows_run 1 (programLines text) ⟨.opening, {}⟩
  exact (hrun.trans (grows_assemble text)).distinct List.nodup_nil

/-- The literal table of an assembled program is orderly. -/
theorem orderly_assemble (text : String) : (assemble text).context.literals.Orderly := by
  rw [assemble_context, Scan.finish_eq (orderly_programScan text)]
  split_ifs
  · exact orderly_programScan text
  · exact (orderly_programScan text).placeRest _
  · exact orderly_programScan text

/-- A symbol has the address of its last binding. -/
theorem addressOf?_assemble (text name : String) :
    (assemble text).context.symbols.addressOf? name =
      lastBinding? (programBindings text) name := by
  rw [assemble_context, (Scan.rows_finish _ _).1]
  refine (Scan.addressOf?_run LiteralTable.orderly_empty 1 (programLines text) name).trans ?_
  exact Option.or_none

/-- The placed literals are the placements. -/
theorem placements_assemble (text : String) :
    (assemble text).context.literals.placements = programPlacements text := by
  have horderly := orderly_programScan text
  have hrun : (programScan text).context.literals.placements =
      Scan.collect Scan.placements 1 (programLines text) ⟨.opening, {}⟩ :=
    Scan.placements_run LiteralTable.orderly_empty 1 (programLines text)
  rw [assemble_context, Scan.finish_eq horderly, programPlacements, ← hrun]
  split_ifs with hphase hroom
  · exact (List.append_nil _).symm
  · exact Context.placements_poolPlaced horderly hroom
  · rw [Context.due_eq horderly, if_neg hroom, List.append_nil]

end Assembler
