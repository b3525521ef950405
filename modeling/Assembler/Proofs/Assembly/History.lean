import Assembler.Proofs.Assembly.Closing
import Assembler.Proofs.Assembly.Frame

/-!
# The history of a symbol

A name may be bound many times, and the last binding holds.  Every binding but the first is warned
of on its line, with the address that the name had until then, so the addresses that a name has had
can be read off the report: those that are warned of in order, and then the one that it has in the
end.  What only mentions a name changes nothing about it, and neither does an equation without a
value.

A symbol has the length of the last storage that was declared under its name and for which there was
room, whatever the name was bound to since.

## Main definitions

* `Scan.boundNames`, `bindingsOf` : the bindings of a program with their lines.
* `Scan.lengths`, `programLengths` : the lengths that lines give to names.
* `rebindings` : the warnings that bindings of a name come with.
* `History` : what a program makes of a name.

## Main results

* `Scan.rebindings_run` : the warnings of any lines.
* `Scan.lengthOf_run` : the lengths after any lines.
* `history_assemble` : what every program makes of every name.
-/

namespace Assembler

/-! ### Bindings and lengths -/

/-- Whether a fault is that a name is bound which had an address. -/
def Fault.rebinds (name : String) : Fault → Bool
  | redefinition other _ => other == name
  | _ => false

private theorem Fault.rebinds_of_stops {fault : Fault} (h : fault.stops = true) (name : String) :
    fault.rebinds name = false := by
  cases fault with
  | redefinition => cases h
  | _ => rfl

/-- The lengths that a source line gives to names.  Storage without room gives none. -/
def Context.lengths (context : Context) : Except Fault SourceLine → List (String × Nat)
  | .ok (.statement ⟨some label, .declaration .storage, operands⟩) =>
    match Location.reserve context.location operands.first? with
    | .ok (words, _) => [(label, words)]
    | .error _ => []
  | _ => []

namespace Scan

/-- A binding of a name on a line. -/
def boundOn (number : Nat) (binding : String × Nat) : Located String :=
  ⟨number, binding.2, binding.1⟩

/-- The names that lines bind, with their lines and addresses. -/
def boundNames (number : Nat) : List String → Scan → List (Located String)
  | [], _ => []
  | line :: rest, scan =>
    (scan.bindings line).map (boundOn number) ++
      boundNames (number + 1) rest (scan.step number line).2

/-- The lengths that a line gives to names where the scan stands. -/
def lengths (scan : Scan) (line : String) : List (String × Nat) :=
  match scan.phase with
  | .ended => []
  | _ => scan.context.lengths (SourceLine.ofText line)

end Scan

/-- The bindings of a name in a program. -/
def bindingsOf (text name : String) : List (Located String) :=
  (Scan.boundNames 1 (programLines text) ⟨.opening, {}⟩).filter (·.content == name)

/-- The lengths that a program gives to names, in order. -/
def programLengths (text : String) : List (String × Nat) :=
  Scan.collect Scan.lengths 1 (programLines text) ⟨.opening, {}⟩

/-- The warning that a name is bound again: it stands on the line of the new binding and tells the
address of the old one. -/
def rebinding (name : String) (earlier later : Located String) : Diagnostic :=
  ⟨later.line, .warning, .redefinition name earlier.address⟩

/-- The warnings that the bindings of a name come with, where it may have an address before. -/
def rebindings (name : String) : Option Nat → List (Located String) → List Diagnostic
  | _, [] => []
  | previous, bound :: later =>
    (previous.map fun address => ⟨bound.line, .warning, .redefinition name address⟩).toList ++
      rebindings name (some bound.address) later

/-- What a program makes of a name. -/
structure History (text name : String) : Prop where
  /-- The address is that of the last binding, and there is none without one. -/
  address : (assemble text).context.symbols.addressOf? name =
    (bindingsOf text name).getLast?.map Located.address
  /-- A line that does not bind the name keeps its address. -/
  kept : ∀ before line after, programLines text = before ++ line :: after →
    (∀ binding ∈ (Scan.run 1 before ⟨.opening, {}⟩).2.bindings line, binding.1 ≠ name) →
    ((Scan.run 1 before ⟨.opening, {}⟩).2.step (1 + before.length) line).2.context.symbols.addressOf?
        name =
      (Scan.run 1 before ⟨.opening, {}⟩).2.context.symbols.addressOf? name
  /-- Every binding but the first is warned of, with the address of the one before it. -/
  warnings : (assemble text).diagnostics.filter (·.fault.rebinds name) =
    List.zipWith (rebinding name) (bindingsOf text name) (bindingsOf text name).tail
  warned : ((assemble text).diagnostics.filter (·.fault.rebinds name)).length =
    (bindingsOf text name).length - 1
  /-- The length is that of the last storage under the name, and 1 without one. -/
  length : ∀ symbol, (assemble text).context.symbols.find? name = some symbol →
    symbol.length = (lastBinding? (programLengths text) name).getD 1

/-! ### Lists of bindings -/

private theorem rebindings_append (name : String) (previous : Option Nat)
    (earlier later : List (Located String)) :
    rebindings name previous (earlier ++ later) = rebindings name previous earlier ++
      rebindings name ((earlier.getLast?.map Located.address).or previous) later := by
  induction earlier generalizing previous with
  | nil => rfl
  | cons bound rest ih =>
    have hlast : ((bound :: rest).getLast?.map Located.address).or previous =
        (rest.getLast?.map Located.address).or (some bound.address) := by
      rw [List.getLast?_cons]
      cases rest.getLast? <;> rfl
    rw [List.cons_append, rebindings, rebindings, ih, hlast, List.append_assoc]

/-- Behind a first binding every binding is warned of. -/
private theorem rebindings_eq_zipWith (name : String) (bound : Located String)
    (later : List (Located String)) :
    rebindings name (some bound.address) later =
      List.zipWith (rebinding name) (bound :: later) later := by
  induction later generalizing bound with
  | nil => rfl
  | cons next rest ih =>
    rw [rebindings, ih, List.zipWith_cons_cons]
    rfl

/-- The last binding of a name, with and without its line. -/
theorem lastBinding?_eq_getLast? (number : Nat) (bindings : List (String × Nat)) (name : String) :
    lastBinding? bindings name =
      ((bindings.map (Scan.boundOn number)).filter (·.content == name)).getLast?.map
        Located.address := by
  induction bindings using List.reverseRecOn with
  | nil => rfl
  | append_singleton earlier binding ih =>
    obtain ⟨label, address⟩ := binding
    rw [lastBinding?_append, lastBinding?_singleton, ih, List.map_append, List.filter_append,
      List.getLast?_append]
    by_cases h : label = name
    · simp [Scan.boundOn, h]
    · simp [Scan.boundOn, h, Ne.symm h]

/-! ### Warnings of another binding -/

namespace Context

/-- The warnings of bindings in a context in which names may have addresses. -/
def remarks (context : Context) (bindings : List (String × Nat)) : List Fault :=
  bindings.flatMap fun binding =>
    ((context.symbols.addressOf? binding.1).map (Fault.redefinition binding.1)).toList

variable {context : Context}

private theorem warnings_bindName (context : Context) (name : String) (address : Nat) :
    (context.bindName name address).1 = context.remarks [(name, address)] :=
  (List.append_nil _).symm

private theorem warnings_bindLabel (context : Context) (label? : Option String) (address : Nat) :
    (context.bindLabel label? address).1 =
      context.remarks (label?.map fun label => (label, address)).toList := by
  cases label? with
  | none => rfl
  | some label => exact warnings_bindName context label address

/-- A source line is warned of for the names that it binds. -/
private theorem Executed.warnings_eq {source : Except Fault SourceLine} {effect : Effect}
    (h : context.Executed source effect) :
    effect.warnings = context.remarks (context.bindings source) := by
  have hnone {statement : Statement} (hbinding : statement.binding? context = none) :
      context.remarks (context.bindings (.ok (.statement statement))) = [] := by
    simp only [bindings, hbinding]
    rfl
  cases h with
  | unread => rfl
  | literal => rfl
  | @performed statement after result hmnemonic =>
    simp only [bindings, statement.binding?_of_ne_equ context hmnemonic]
    exact warnings_bindLabel context statement.label context.location
  | incomplete _ hmnemonic hparts =>
    refine (hnone ?_).symm
    obtain hlabel | hoperand := hparts
    · rw [Statement.binding?, hlabel]
    · rw [Statement.binding?, hmnemonic, hoperand]
      split <;> rfl
  | valueless hmnemonic hlabel hoperand hvalue =>
    refine (hnone ?_).symm
    simp [Statement.binding?, hlabel, hmnemonic, hoperand, hvalue, Except.toOption]
  | @equated statement label operand value hmnemonic hlabel hoperand hvalue =>
    have hbinding : statement.binding? context = some (label, value) := by
      simp [Statement.binding?, hlabel, hmnemonic, hoperand, hvalue, Except.toOption]
    simp only [bindings, hbinding]
    exact warnings_bindName context label value

/-- The warnings of one binding, as diagnostics. -/
private theorem map_filter_remarks (context : Context) (number : Nat)
    (binding? : Option (String × Nat)) (name : String) :
    ((context.remarks binding?.toList).filter (Fault.rebinds name)).map
        (Diagnostic.mk number .warning) =
      rebindings name (context.symbols.addressOf? name)
        ((binding?.toList.map (Scan.boundOn number)).filter (·.content == name)) := by
  cases binding? with
  | none => rfl
  | some binding =>
    obtain ⟨label, address⟩ := binding
    by_cases h : label = name
    · subst h
      cases hknown : context.symbols.addressOf? label <;>
        simp [remarks, hknown, Fault.rebinds, Scan.boundOn, rebindings]
    · cases hknown : context.symbols.addressOf? label <;>
        simp [remarks, hknown, Fault.rebinds, Scan.boundOn, rebindings, h]

end Context

namespace Scan

variable {scan : Scan} {number : Nat} {line : String}

/-- A line binds one name at most. -/
private theorem exists_toList_eq_bindings (scan : Scan) (line : String) :
    ∃ binding?, scan.bindings line = Option.toList binding? := by
  have hcontext : ∃ binding?, scan.context.bindings (SourceLine.ofText line) =
      Option.toList binding? := by
    unfold Context.bindings
    split
    · exact ⟨_, rfl⟩
    · exact ⟨none, rfl⟩
  unfold bindings
  split
  · exact ⟨none, rfl⟩
  · exact hcontext
  · dsimp only
    split
    · exact ⟨_, rfl⟩
    · exact hcontext

/-- The warnings that a name is bound again are those of the bindings of the line. -/
theorem filter_rebinds_ofLine {address : Nat} {noted warnings : List Fault}
    {result : Except Fault (Option Record)} (name : String)
    (hnoted : ∀ fault ∈ noted, fault.rebinds name = false)
    (hwarnings : warnings = scan.context.remarks (scan.bindings line))
    (hresult : ∀ fault, result = .error fault → fault.stops = true) :
    (Trace.ofLine number address (noted ++ warnings) result).diagnostics.filter
        (·.fault.rebinds name) =
      rebindings name (scan.context.symbols.addressOf? name)
        (((scan.bindings line).map (boundOn number)).filter (·.content == name)) := by
  have hnone : noted.filter (Fault.rebinds name) = [] := by
    rw [List.filter_eq_nil_iff]
    intro fault hmem
    rw [hnoted fault hmem]
    exact Bool.false_ne_true
  obtain ⟨binding?, hbinding⟩ := scan.exists_toList_eq_bindings line
  rw [Trace.filter_ofLine (Fault.rebinds name) fun fault hfault =>
    Fault.rebinds_of_stops (hresult fault hfault) name, List.filter_append, hnone, List.nil_append,
    hwarnings, hbinding, Context.map_filter_remarks]

private theorem rebindings_step (scan : Scan) (number : Nat) (line name : String) :
    (scan.step number line).1.diagnostics.filter (·.fault.rebinds name) =
      rebindings name (scan.context.symbols.addressOf? name)
        (((scan.bindings line).map (boundOn number)).filter (·.content == name)) := by
  have hstepped := scan.stepped_step number line
  generalize scan.step number line = outcome at hstepped ⊢
  cases hstepped with
  | idle hidle =>
    rw [bindings_of_idle hidle]
    rfl
  | @opened label operands _ hphase hread =>
    have hbindings : scan.bindings line =
        (label.map fun name => (name, (startAddress operands).2)).toList := by
      rw [bindings, hphase]
      dsimp only
      rw [start?_of_ofText hread]
    refine filter_rebinds_ofLine name (fun fault hmem => ?_) ?_ fun fault h => by cases h
    · exact Fault.rebinds_of_stops (stops_of_startAddress hmem) name
    · rw [hbindings]
      exact Context.warnings_bindLabel _ label _
  | @proceeded warnings _ hphase hwarnings hread =>
    refine filter_rebinds_ofLine name (fun fault hmem => ?_) ?_
      fun fault => Context.stops_of_execute
    · rw [hwarnings] at hmem
      split_ifs at hmem
      · rw [List.mem_singleton.mp hmem]
        rfl
      · cases hmem
    · rw [bindings_of_proceeded hphase hread]
      exact (Context.executed_execute _ _).warnings_eq

/-- The warnings of any lines that a name is bound again. -/
theorem rebindings_run (horderly : scan.context.literals.Orderly) (number : Nat)
    (lines : List String) (name : String) :
    (run number lines scan).1.diagnostics.filter (·.fault.rebinds name) =
      rebindings name (scan.context.symbols.addressOf? name)
        ((boundNames number lines scan).filter (·.content == name)) := by
  induction lines generalizing number scan with
  | nil => rfl
  | cons line rest ih =>
    have hline := scan.stepped_step number line
    rw [run_cons, boundNames, List.filter_append, rebindings_append, ← rebindings_step,
      ← lastBinding?_eq_getLast?, ← hline.addressOf? horderly, ← ih (hline.orderly horderly)]
    exact List.filter_append ..

/-- Bindings with and without their lines. -/
private theorem getLast?_boundNames (number : Nat) (lines : List String) (scan : Scan)
    (name : String) :
    ((boundNames number lines scan).filter (·.content == name)).getLast?.map Located.address =
      lastBinding? (collect bindings number lines scan) name := by
  induction lines generalizing number scan with
  | nil => rfl
  | cons line rest ih =>
    rw [boundNames, collect, lastBinding?_append, ← ih, lastBinding?_eq_getLast? number,
      List.filter_append, List.getLast?_append]
    cases ((boundNames (number + 1) rest _).filter _).getLast? <;> rfl

end Scan

/-! ### Lengths -/

namespace SymbolTable

/-- The length of a name.  A name without a row has the length that its row would begin with. -/
def lengthOf (table : SymbolTable) (name : String) : Nat :=
  ((table.find? name).map Symbol.length).getD 1

private theorem lengthOf_enter (table : SymbolTable) (name other : String) :
    (table.enter name).lengthOf other = table.lengthOf other := by
  rw [lengthOf, lengthOf, find?_enter]
  split_ifs with h
  · subst h
    cases table.find? other <;> rfl
  · rfl

private theorem lengthOf_define (table : SymbolTable) (name other : String) (address : Nat) :
    (table.define name address).2.lengthOf other = table.lengthOf other := by
  rw [← lengthOf_enter table name other, lengthOf, lengthOf, find?_define]
  split_ifs
  · cases (table.enter name).find? other <;> rfl
  · rfl

/-- Setting the length of a name that has a row changes the length of that name only. -/
private theorem lengthOf_setLength {table : SymbolTable} {name : String} (h : name ∈ table.names)
    (length : Nat) (other : String) :
    (table.setLength name length).lengthOf other =
      if other = name then length else table.lengthOf other := by
  rw [setLength, lengthOf, lengthOf, find?_update]
  · split_ifs with hother
    · obtain ⟨symbol, hsymbol⟩ := Option.isSome_iff_exists.mp (find?_isSome_iff.mpr h)
      rw [hother, hsymbol]
      rfl
    · rfl
  · intro symbol
    rfl

end SymbolTable

namespace Context

variable {context : Context}

private theorem lengthOf_bindLabel (context : Context) (label? : Option String) (address : Nat)
    (name : String) :
    (context.bindLabel label? address).2.symbols.lengthOf name = context.symbols.lengthOf name := by
  cases label? with
  | none => rfl
  | some label => exact SymbolTable.lengthOf_define _ _ _ _

private theorem Referred.lengthOf {after : Context} {operand? : Option String}
    {reference : Reference} (h : context.Referred operand? reference after) (name : String) :
    after.symbols.lengthOf name = context.symbols.lengthOf name := by
  cases h with
  | absent => rfl
  | literal => rfl
  | constant => rfl
  | symbol => exact SymbolTable.lengthOf_enter _ _ _

/-- Only storage gives a name a length. -/
theorem Performed.lengthOf {bound after : Context} {statement : Statement}
    {result : Except Fault Record} (h : bound.Performed statement after result)
    (horderly : bound.literals.Orderly) (hmnemonic : statement.mnemonic ≠ .declaration .storage)
    (name : String) : after.symbols.lengthOf name = bound.symbols.lengthOf name := by
  cases h with
  | refused => rfl
  | full => rfl
  | spoiled => rfl
  | instruction _ _ _ hrefer => exact hrefer.lengthOf name
  | constant => rfl
  | storage hstorage => exact absurd hstorage hmnemonic
  | origin => rfl
  | placed _ hplacing hplaced =>
    rw [(eq_poolPlaced_of_placing horderly hplacing hplaced).1]
    rfl
  | unplaced => rfl

private theorem lengths_of_ne_storage (context : Context) {statement : Statement}
    (h : statement.mnemonic ≠ .declaration .storage) :
    context.lengths (.ok (.statement statement)) = [] := by
  unfold lengths
  split
  · rename_i hstatement
    cases hstatement
    exact absurd rfl h
  · rfl

/-- Storage gives its label a length, if there is room for it. -/
private theorem lengthOf_declareStorage (context : Context) (label? : Option String)
    (operands : Operands) (name : String) :
    (context.execute
          (.ok (.statement ⟨label?, .declaration .storage, operands⟩))).context.symbols.lengthOf
        name =
      (lastBinding? (context.lengths (.ok (.statement ⟨label?, .declaration .storage, operands⟩)))
        name).getD (context.symbols.lengthOf name) := by
  change ((context.bindLabel label? context.location).2.declareStorage
    ⟨label?, .declaration .storage, operands⟩).1.symbols.lengthOf name = _
  rw [declareStorage, bindLabel_location]
  cases label? with
  | none =>
    rcases Location.reserve context.location operands.first? with fault | ⟨words, next⟩ <;> rfl
  | some label =>
    have hmem : label ∈ (context.symbols.define label context.location).2.names := by
      rw [SymbolTable.names_define]
      exact SymbolTable.mem_names_enter_self _ label
    rw [lengths]
    dsimp only
    rcases Location.reserve context.location operands.first? with fault | ⟨words, next⟩
    · exact SymbolTable.lengthOf_define _ _ _ _
    · dsimp only [bindLabel, bindName]
      rw [SymbolTable.lengthOf_setLength hmem, SymbolTable.lengthOf_define, lastBinding?_singleton]
      split_ifs <;> rfl

/-- The length of a name after a source line. -/
theorem lengthOf_execute (horderly : context.literals.Orderly) (source : Except Fault SourceLine)
    (name : String) :
    (context.execute source).context.symbols.lengthOf name =
      (lastBinding? (context.lengths source) name).getD (context.symbols.lengthOf name) := by
  have hexecuted := context.executed_execute source
  rcases source with fault | text | statement
  · rfl
  · rfl
  · by_cases hmnemonic : statement.mnemonic = .declaration .storage
    · obtain ⟨label?, mnemonic, operands⟩ := statement
      obtain rfl : mnemonic = .declaration .storage := hmnemonic
      exact lengthOf_declareStorage context label? operands name
    · rw [lengths_of_ne_storage context hmnemonic]
      generalize context.execute _ = effect at hexecuted ⊢
      cases hexecuted with
      | performed _ hresult =>
        exact (hresult.lengthOf (orderly_bindLabel horderly _ _) hmnemonic name).trans
          (lengthOf_bindLabel _ _ _ _)
      | incomplete => rfl
      | valueless => exact SymbolTable.lengthOf_enter _ _ _
      | equated => exact SymbolTable.lengthOf_define _ _ _ _

end Context

namespace Scan

variable {scan : Scan} {number : Nat} {line : String} {outcome : Trace × Scan}

/-- The length of a name after a line. -/
theorem Stepped.lengthOf (h : scan.Stepped number line outcome)
    (horderly : scan.context.literals.Orderly) (name : String) :
    outcome.2.context.symbols.lengthOf name =
      (lastBinding? (scan.lengths line) name).getD (scan.context.symbols.lengthOf name) := by
  cases h with
  | idle hidle =>
    have hnone : scan.lengths line = [] := by
      rw [lengths]
      obtain hblank | hended := hidle
      · rw [SourceLine.ofText_of_isBlankText hblank]
        split <;> rfl
      · rw [hended]
    rw [hnone]
    rfl
  | opened _ hphase hread =>
    have hnone : scan.lengths line = [] := by
      rw [lengths, hphase, hread]
      exact Context.lengths_of_ne_storage _ Mnemonic.noConfusion
    rw [hnone]
    exact Context.lengthOf_bindLabel _ _ _ _
  | proceeded _ hphase =>
    have hline : scan.lengths line = scan.context.lengths (SourceLine.ofText line) := by
      rw [lengths]
      split
      · rename_i hended
        exact absurd hended hphase
      · rfl
    rw [hline]
    exact Context.lengthOf_execute horderly _ name

/-- The length of a name after any lines. -/
theorem lengthOf_run (horderly : scan.context.literals.Orderly) (number : Nat)
    (lines : List String) (name : String) :
    (run number lines scan).2.context.symbols.lengthOf name =
      (lastBinding? (collect lengths number lines scan) name).getD
        (scan.context.symbols.lengthOf name) := by
  induction lines generalizing number scan with
  | nil => rfl
  | cons line rest ih =>
    have hline := scan.stepped_step number line
    change (run (number + 1) rest (scan.step number line).2).2.context.symbols.lengthOf name = _
    rw [ih (hline.orderly horderly), hline.lengthOf horderly, collect, lastBinding?_append]
    cases lastBinding? (collect lengths (number + 1) rest _) name <;> rfl

end Scan

/-! ### Whole programs -/

/-- No record is blamed for another binding of a name, nor for the frame of its program. -/
theorem Context.Unencoded.stops {context : Context} {fault : Fault}
    (h : context.Unencoded fault) : fault.stops = true := by
  cases h <;> rfl

/-- Another binding of a name is noted while the lines of a program are read and never later. -/
theorem filter_rebinds_assemble (text name : String) :
    (assemble text).diagnostics.filter (·.fault.rebinds name) =
      (Scan.run 1 (programLines text) ⟨.opening, {}⟩).1.diagnostics.filter
        (·.fault.rebinds name) := by
  have hend : ((programScan text).finish (programLines text).length).1.diagnostics.filter
      (·.fault.rebinds name) = [] := by
    rw [Scan.finish_eq (orderly_programScan text)]
    split_ifs <;> rfl
  have hencoding : ((assemble text).context.image (assemble text).records).diagnostics.filter
      (·.fault.rebinds name) = [] := by
    rw [List.filter_eq_nil_iff]
    intro diagnostic hmem
    obtain ⟨record, -, -, hencode⟩ := Context.exists_record_of_mem_diagnostics hmem
    rw [Fault.rebinds_of_stops (Context.unencoded_of_encode hencode).stops]
    exact Bool.false_ne_true
  rw [assemble_diagnostics, scanText_diagnostics, List.filter_append, List.filter_append, hend,
    hencoding, List.append_nil, List.append_nil]

/-- What every program makes of every name. -/
theorem history_assemble (text name : String) : History text name := by
  have hempty : (Scan.mk .opening {}).context.literals.Orderly := LiteralTable.orderly_empty
  have hwarnings : (assemble text).diagnostics.filter (·.fault.rebinds name) =
      List.zipWith (rebinding name) (bindingsOf text name) (bindingsOf text name).tail := by
    rw [filter_rebinds_assemble, Scan.rebindings_run hempty]
    change rebindings name none (bindingsOf text name) = _
    cases bindingsOf text name with
    | nil => rfl
    | cons bound later => exact rebindings_eq_zipWith name bound later
  refine ⟨?_, ?_, hwarnings, ?_, ?_⟩
  · rw [addressOf?_assemble, programBindings, bindingsOf, Scan.getLast?_boundNames]
  · intro before line after _ hbindings
    have hnone : lastBinding? ((Scan.run 1 before ⟨.opening, {}⟩).2.bindings line) name = none := by
      rw [lastBinding?, List.lookup_eq_none_iff]
      intro binding hmem
      simpa using (hbindings binding (List.mem_reverse.mp hmem)).symm
    rw [(Scan.stepped_step _ _ line).addressOf? (Scan.orderly_run hempty 1 before), hnone,
      Option.none_or]
  · rw [hwarnings, List.length_zipWith, List.length_tail]
    exact Nat.min_eq_right (Nat.sub_le _ 1)
  · intro symbol hsymbol
    have hlength : (assemble text).context.symbols.lengthOf name = symbol.length := by
      rw [SymbolTable.lengthOf, hsymbol]
      rfl
    rw [← hlength, assemble_context, (Scan.rows_finish _ _).1]
    exact Scan.lengthOf_run hempty 1 (programLines text) name

-- An equation is worked out with the old address of its own name, and one without a value is left.
example : bindingsOf "A START 5\nA EQU A+1\nA EQU B\nA STOP\n" "A" =
    [⟨1, 5, "A"⟩, ⟨2, 6, "A"⟩, ⟨4, 5, "A"⟩] := by
  decide +kernel

end Assembler
