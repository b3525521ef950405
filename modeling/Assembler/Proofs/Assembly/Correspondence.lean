import Assembler.Proofs.Assembly.Stream

/-!
# Programs that correspond

Two programs may differ in how their symbols are spelled, in the places at which they stand or in
whether their operands are names or numerals, and be read alike all the same.  What such pairs of
programs have in common is proved once.  A correspondence says which contexts, addresses, faults and
records correspond and how the words of the second program come from those of the first.  It is
lawful if the few operations on tables, addresses and expressions respect it.  Here it is shown that
then statements and source lines do.

Some programs correspond only as long as neither fails: at larger addresses there is less room.  A
correspondence may be lenient, and then it says nothing behind a fault of either program.

## Main definitions

* `Correspondence` : what corresponds, and how the second program is spelled.
* `Correspondence.Lawful` : the operations that everything else is made of respect it.
* `Correspondence.Outcomes`, `Correspondence.Effects` : what statements and source lines come to.

## Main results

* `Correspondence.Lawful.executeStatement` : one statement.
* `Correspondence.Lawful.execute` : one source line.
-/

namespace Assembler

/-! ### Faults that tell no symbol -/

/-- A fault tells no symbol if it is the same under all names. -/
def Fault.Nameless (fault : Fault) : Prop :=
  ∀ f : Renaming, fault.rename f = fault

section

variable {fault : Fault}

private theorem nameless_registerField {operands : Operands} {opcode : Opcode}
    (h : operands.registerField opcode = .error fault) : fault.Nameless := by
  intro f
  unfold Operands.registerField at h
  split at h
  · cases h
  · cases h
  · split at h
    · cases h
    · cases h
      rfl

private theorem nameless_firstOperand {statement : Statement}
    (h : statement.firstOperand = .error fault) : fault.Nameless := by
  intro f
  unfold Statement.firstOperand at h
  split at h
  · cases h
  · cases h
    rfl

private theorem nameless_constantValue {operand : String}
    (h : constantValue operand = .error fault) : fault.Nameless := by
  intro f
  unfold constantValue at h
  dsimp only at h
  split at h
  · cases h
  · cases h
    rfl

private theorem nameless_reservation {size? : Option String}
    (h : Location.reservation size? = .error fault) : fault.Nameless := by
  intro f
  unfold Location.reservation at h
  split at h
  · cases h
  · split at h
    · cases h
    · cases h
      rfl

theorem nameless_advance {address words : Nat} (h : Location.advance address words = .error fault) :
    fault.Nameless := by
  intro f
  obtain ⟨rfl, -⟩ := Location.advance_eq_error_iff.mp h
  rfl

private theorem nameless_placeAfter {table : LiteralTable} {skipped address : Nat}
    (h : table.placeAfter skipped address = .error fault) : fault.Nameless := by
  intro f
  rw [LiteralTable.placeAfter] at h
  split_ifs at h
  cases h
  rfl

theorem nameless_place {place : LiteralTable → Nat → Except Fault (Nat × LiteralTable)}
    {table : LiteralTable} {address : Nat}
    (hplace : place ∈ [LiteralTable.placeOpen, LiteralTable.placeAll])
    (h : place table address = .error fault) : fault.Nameless := by
  obtain rfl | hall := List.mem_cons.mp hplace
  · exact nameless_placeAfter h
  · obtain rfl := List.mem_singleton.mp hall
    exact nameless_placeAfter h

theorem nameless_ofText {line : String} (h : SourceLine.ofText line = .error fault) :
    fault.Nameless := by
  intro f
  cases SourceLine.unread_of_ofText h <;> rfl

theorem nameless_startAddress {operands : Operands} (h : fault ∈ (startAddress operands).1) :
    fault.Nameless := by
  intro f
  unfold startAddress at h
  split at h
  · cases h
  · split at h
    · cases h
    · obtain rfl := List.mem_singleton.mp h
      rfl

end

/-! ### Correspondences -/

private theorem Operands.registerField_mapMemory (change : String → String) (operands : Operands)
    (opcode : Opcode) :
    (operands.mapMemory change).registerField opcode = operands.registerField opcode := by
  cases operands <;> rfl

private theorem Statement.firstOperand_mapFirst (label? label?' : Option String)
    (mnemonic : Mnemonic) (operands : Operands) (change : String → String) :
    firstOperand ⟨label?', mnemonic, operands.mapFirst change⟩ =
      (firstOperand ⟨label?, mnemonic, operands⟩).map change := by
  cases operands <;> rfl

/-- What corresponds in two programs. -/
structure Correspondence where
  /-- How a label of the first program is spelled in the second. -/
  label : String → String := id
  /-- How the memory operand of an instruction is spelled. -/
  memory : String → String := id
  /-- How an expression is spelled. -/
  expression : String → String := id
  /-- The expressions that may stand in the first program. -/
  Admits : String → Prop := fun _ => True
  /-- Contexts of the two programs behind lines that correspond. -/
  Knows : Context → Context → Prop
  /-- Addresses that the two programs give to the same thing. -/
  Address : Nat → Nat → Prop := Eq
  /-- A fault of the first program, and what the second reports in its place. -/
  Reports : Fault → Fault → Prop := Eq
  /-- Records that lines which correspond have left in contexts. -/
  Leaves : Context → Context → Record → Record → Prop
  /-- A fault of either program is an excuse for the other. -/
  Lenient : Prop := False

namespace Correspondence

variable (K : Correspondence)

/-- The operands of a statement, as the second program has them. -/
def operands (mnemonic : Mnemonic) (operands : Operands) : Operands :=
  match mnemonic with
  | .operation _ => operands.mapMemory K.memory
  | _ => if mnemonic.takesExpression then operands.mapFirst K.expression else operands

/-- A statement, as the second program has it. -/
def statement (statement : Statement) : Statement :=
  ⟨statement.label.map K.label, statement.mnemonic,
    K.operands statement.mnemonic statement.operands⟩

/-- A source line, as the second program has it. -/
def source : SourceLine → SourceLine
  | .literal text => .literal text
  | .statement content => .statement (K.statement content)

/-- The expression of a statement, if it has one, may stand in the first program. -/
def AdmitsStatement (statement : Statement) : Prop :=
  statement.mnemonic.takesExpression = true →
    ∀ operand, statement.firstOperand = .ok operand → K.Admits operand

/-- The expression in a source line, if there is one, may stand in the first program. -/
def AdmitsSource (source : Except Fault SourceLine) : Prop :=
  ∀ statement, source = .ok (.statement statement) → K.AdmitsStatement statement

/-- Results that correspond: values, or faults, or anything beside a fault that excuses it. -/
inductive Results {α β : Type} (related : α → β → Prop) :
    Except Fault α → Except Fault β → Prop
  | ok {value : α} {value' : β} (h : related value value') :
      Results related (.ok value) (.ok value')
  | error {fault fault' : Fault} (h : K.Reports fault fault') :
      Results related (.error fault) (.error fault')
  | first (h : K.Lenient) (fault : Fault) (result' : Except Fault β) :
      Results related (.error fault) result'
  | second (h : K.Lenient) (result : Except Fault α) (fault' : Fault) :
      Results related result (.error fault')

/-- What performing statements comes to, in contexts that correspond. -/
inductive Outcomes : Context × Except Fault Record → Context × Except Fault Record → Prop
  | done {context other : Context} {record record' : Record} (hknows : K.Knows context other)
      (h : K.Leaves context other record record') :
      Outcomes (context, .ok record) (other, .ok record')
  | failed {context other : Context} {fault fault' : Fault} (hknows : K.Knows context other)
      (h : K.Reports fault fault') : Outcomes (context, .error fault) (other, .error fault')
  | first (h : K.Lenient) (context : Context) (fault : Fault)
      (outcome' : Context × Except Fault Record) : Outcomes (context, .error fault) outcome'
  | second (h : K.Lenient) (outcome : Context × Except Fault Record) (other : Context)
      (fault' : Fault) : Outcomes outcome (other, .error fault')

/-- What source lines come to, in contexts that correspond. -/
inductive Effects : Effect → Effect → Prop
  | done {context other : Context} {warnings warnings' : List Fault}
      {record? record?' : Option Record} (hwarnings : List.Forall₂ K.Reports warnings warnings')
      (hknows : K.Knows context other) (h : Option.Rel (K.Leaves context other) record? record?') :
      Effects ⟨context, warnings, .ok record?⟩ ⟨other, warnings', .ok record?'⟩
  | failed {context other : Context} {warnings warnings' : List Fault} {fault fault' : Fault}
      (hwarnings : List.Forall₂ K.Reports warnings warnings') (hknows : K.Knows context other)
      (h : K.Reports fault fault') :
      Effects ⟨context, warnings, .error fault⟩ ⟨other, warnings', .error fault'⟩
  | first (h : K.Lenient) (context : Context) (warnings : List Fault) (fault : Fault)
      (effect' : Effect) : Effects ⟨context, warnings, .error fault⟩ effect'
  | second (h : K.Lenient) (effect : Effect) (other : Context) (warnings' : List Fault)
      (fault' : Fault) : Effects effect ⟨other, warnings', .error fault'⟩

/-- The operations that everything else is made of respect a correspondence. -/
structure Lawful : Prop where
  nameless : ∀ {fault : Fault}, fault.Nameless → K.Reports fault fault
  location : ∀ {context other : Context}, K.Knows context other →
    K.Address context.location other.location
  moved : ∀ {context other : Context} {address address' : Nat}, K.Knows context other →
    K.Address address address' →
      K.Knows { context with location := address } { other with location := address' }
  advance : ∀ {address address' : Nat}, K.Address address address' → ∀ words,
    K.Results K.Address (Location.advance address words) (Location.advance address' words)
  bindName : ∀ {context other : Context} {address address' : Nat}, K.Knows context other →
    K.Address address address' → ∀ name,
      List.Forall₂ K.Reports (context.bindName name address).1
          (other.bindName (K.label name) address').1 ∧
        K.Knows (context.bindName name address).2 (other.bindName (K.label name) address').2
  enter : ∀ {context other : Context}, K.Knows context other → ∀ name,
    K.Knows { context with symbols := context.symbols.enter name }
      { other with symbols := other.symbols.enter (K.label name) }
  setLength : ∀ {context other : Context}, K.Knows context other → ∀ name length,
    K.Knows { context with symbols := context.symbols.setLength name length }
      { other with symbols := other.symbols.setLength (K.label name) length }
  intern : ∀ {context other : Context}, K.Knows context other → ∀ text,
    K.Knows { context with literals := (context.literals.intern text).2 }
      { other with literals := (other.literals.intern text).2 }
  place : ∀ {context other : Context}, K.Knows context other →
    ∀ place ∈ [LiteralTable.placeOpen, LiteralTable.placeAll],
      K.Results
        (fun placed placed' => placed'.1 = placed.1 ∧
          K.Knows { context with literals := placed.2 } { other with literals := placed'.2 })
        (place context.literals context.location) (place other.literals other.location)
  evaluate : ∀ {context other : Context} {directive : Directive} {text : String},
    K.Knows context other → (Mnemonic.directive directive).takesExpression = true →
      K.Admits text →
        K.Results K.Address (Expression.evaluate directive text context.symbols)
          (Expression.evaluate directive (K.expression text) other.symbols)
  refer : ∀ {context other : Context}, K.Knows context other → ∀ operand,
    K.Results
      (fun referred referred' => K.Knows referred.2 referred'.2 ∧
        ∀ opcode register, K.Leaves referred.2 referred'.2
          (.instruction opcode register referred.1) (.instruction opcode register referred'.1))
      (context.refer operand) (other.refer (K.memory operand))
  bare : ∀ {context other : Context}, K.Knows context other → ∀ opcode register,
    K.Leaves context other (.instruction opcode register .none)
      (.instruction opcode register .none)
  directive : ∀ {context other : Context} {operand operand' : Option Nat} (word : Directive),
    Option.Rel K.Address operand operand' →
      K.Leaves context other (.directive word operand) (.directive word operand')
  declaration : ∀ {context other : Context} (word : Declaration) (value : Nat),
    K.Leaves context other (.declaration word value) (.declaration word value)
  grows : ∀ {context other later later' : Context} {record record' : Record},
    K.Leaves context other record record' → context.Grows later → other.Grows later' →
      K.Leaves later later' record record'

variable {K}

/-- What holds of values, of faults and beside an excuse holds of results that correspond. -/
@[elab_as_elim]
theorem Results.elim {α β : Type} {related : α → β → Prop}
    {motive : Except Fault α → Except Fault β → Prop} {result : Except Fault α}
    {result' : Except Fault β} (h : K.Results related result result')
    (hfirst : K.Lenient → ∀ fault result', motive (.error fault) result')
    (hsecond : K.Lenient → ∀ result fault', motive result (.error fault'))
    (herror : ∀ fault fault', K.Reports fault fault' → motive (.error fault) (.error fault'))
    (hok : ∀ value value', related value value' → motive (.ok value) (.ok value')) :
    motive result result' := by
  cases h with
  | ok h => exact hok _ _ h
  | error h => exact herror _ _ h
  | first h => exact hfirst h _ _
  | second h => exact hsecond h _ _

theorem Results.imp {α β : Type} {related related' : α → β → Prop} {result : Except Fault α}
    {result' : Except Fault β} (h : K.Results related result result')
    (hrelated : ∀ value value', related value value' → related' value value') :
    K.Results related' result result' := by
  cases h with
  | ok h => exact .ok (hrelated _ _ h)
  | error h => exact .error h
  | first h => exact .first h _ _
  | second h => exact .second h _ _

/-- A result corresponds to itself if its values and its faults do. -/
theorem Results.refl {α : Type} {related : α → α → Prop} (result : Except Fault α)
    (hok : ∀ value, result = .ok value → related value value)
    (herror : ∀ fault, result = .error fault → K.Reports fault fault) :
    K.Results related result result := by
  cases result with
  | ok value => exact .ok (hok value rfl)
  | error fault => exact .error (herror fault rfl)

/-- What a statement comes to is what its line comes to. -/
private theorem Outcomes.effects {outcome outcome' : Context × Except Fault Record}
    {warnings warnings' : List Fault} (h : K.Outcomes outcome outcome')
    (hwarnings : List.Forall₂ K.Reports warnings warnings') :
    K.Effects ⟨outcome.1, warnings, outcome.2.map some⟩
      ⟨outcome'.1, warnings', outcome'.2.map some⟩ := by
  cases h with
  | done hknows hrecord => exact .done hwarnings hknows (.some hrecord)
  | failed hknows hfault => exact .failed hwarnings hknows hfault
  | first hlenient => exact .first hlenient _ _ _ _
  | second hlenient => exact .second hlenient _ _ _ _

theorem Lawful.forall₂_nameless (hK : K.Lawful) {faults : List Fault}
    (h : ∀ fault ∈ faults, fault.Nameless) : List.Forall₂ K.Reports faults faults :=
  List.forall₂_same.mpr fun fault hfault => hK.nameless (h fault hfault)

namespace Lawful

variable (hK : K.Lawful) {context other : Context}

include hK

/-! ### Statements -/

theorem bindLabel (h : K.Knows context other) {address address' : Nat}
    (haddress : K.Address address address') (label? : Option String) :
    List.Forall₂ K.Reports (context.bindLabel label? address).1
        (other.bindLabel (label?.map K.label) address').1 ∧
      K.Knows (context.bindLabel label? address).2
        (other.bindLabel (label?.map K.label) address').2 := by
  cases label? with
  | none => exact ⟨.nil, h⟩
  | some label => exact hK.bindName h haddress label

theorem referOption (h : K.Knows context other) (operand? : Option String) :
    K.Results
      (fun referred referred' => K.Knows referred.2 referred'.2 ∧
        ∀ opcode register, K.Leaves referred.2 referred'.2
          (.instruction opcode register referred.1) (.instruction opcode register referred'.1))
      (context.referOption operand?) (other.referOption (operand?.map K.memory)) := by
  cases operand? with
  | none => exact .ok ⟨h, hK.bare h⟩
  | some operand => exact hK.refer h operand

theorem instruction (h : K.Knows context other) (opcode : Opcode) (operands : Operands) :
    K.Outcomes (context.instruction opcode operands)
      (other.instruction opcode (operands.mapMemory K.memory)) := by
  rw [Context.instruction, Context.instruction, Operands.registerField_mapMemory,
    Operands.memory?_mapMemory]
  refine (hK.advance (hK.location h) 1).elim (fun hlenient _ _ => .first hlenient _ _ _)
    (fun hlenient _ _ => .second hlenient _ _ _) (fun _ _ hfault => .failed h hfault) ?_
  intro next next' hnext
  have hmoved := hK.moved h hnext
  dsimp only
  cases hfield : operands.registerField opcode with
  | error fault => exact .failed hmoved (hK.nameless (nameless_registerField hfield))
  | ok register =>
    dsimp only
    refine (hK.referOption hmoved operands.memory?).elim (fun hlenient _ _ => .first hlenient _ _ _)
      (fun hlenient _ _ => .second hlenient _ _ _) (fun _ _ hfault => .failed hmoved hfault) ?_
    rintro ⟨reference, entered⟩ ⟨reference', entered'⟩ ⟨hentered, hrecord⟩
    exact .done hentered (hrecord opcode register)

/-- The operands of a declaration are the same in both programs. -/
theorem declareConstant (h : K.Knows context other) (label? label?' : Option String)
    (operands : Operands) :
    K.Outcomes (context.declareConstant ⟨label?, .declaration .constant, operands⟩)
      (other.declareConstant ⟨label?', .declaration .constant, operands⟩) := by
  have hsame : Statement.firstOperand ⟨label?', .declaration .constant, operands⟩ =
      Statement.firstOperand ⟨label?, .declaration .constant, operands⟩ := rfl
  rw [Context.declareConstant, Context.declareConstant, hsame]
  refine (hK.advance (hK.location h) 1).elim (fun hlenient _ _ => .first hlenient _ _ _)
    (fun hlenient _ _ => .second hlenient _ _ _) (fun _ _ hfault => .failed h hfault) ?_
  intro next next' hnext
  have hmoved := hK.moved h hnext
  dsimp only
  cases hfirst : Statement.firstOperand ⟨label?, .declaration .constant, operands⟩ with
  | error fault => exact .failed hmoved (hK.nameless (nameless_firstOperand hfirst))
  | ok operand =>
    dsimp only
    cases hvalue : constantValue operand with
    | error fault => exact .failed hmoved (hK.nameless (nameless_constantValue hvalue))
    | ok value => exact .done hmoved (hK.declaration .constant value)

theorem reserve {address address' : Nat} (h : K.Address address address')
    (size? : Option String) :
    K.Results (fun reserved reserved' => reserved'.1 = reserved.1 ∧
        K.Address reserved.2 reserved'.2)
      (Location.reserve address size?) (Location.reserve address' size?) := by
  rw [Location.reserve, Location.reserve]
  cases hreservation : Location.reservation size? with
  | error fault => exact .error (hK.nameless (nameless_reservation hreservation))
  | ok words =>
    dsimp only
    refine (hK.advance h words).elim (fun hlenient _ _ => ?_) (fun hlenient _ _ => ?_)
      (fun _ _ hfault => ?_) fun _ _ hnext => .ok ⟨rfl, hnext⟩
    · cases size? <;> exact .first hlenient _ _
    · cases size? <;> exact .second hlenient _ _
    · cases size? with
      | none => exact .error hfault
      | some size => exact .error (hK.nameless fun f => rfl)

theorem declareStorage (h : K.Knows context other) (label? : Option String)
    (operands : Operands) :
    K.Outcomes (context.declareStorage ⟨label?, .declaration .storage, operands⟩)
      (other.declareStorage ⟨label?.map K.label, .declaration .storage, operands⟩) := by
  rw [Context.declareStorage, Context.declareStorage]
  refine (hK.reserve (hK.location h) operands.first?).elim
    (fun hlenient _ _ => .first hlenient _ _ _) (fun hlenient _ _ => .second hlenient _ _ _)
    (fun _ _ hfault => .failed h hfault) ?_
  rintro ⟨_, next⟩ ⟨words, next'⟩ ⟨rfl, hnext⟩
  have hmoved := hK.moved h hnext
  cases label? with
  | none => exact .done hmoved (hK.declaration .storage words)
  | some label => exact .done (hK.setLength hmoved label words) (hK.declaration .storage words)

theorem origin (h : K.Knows context other) (label? label?' : Option String) {operands : Operands}
    (hadmits : K.AdmitsStatement ⟨label?, .directive .origin, operands⟩) :
    K.Outcomes (context.origin ⟨label?, .directive .origin, operands⟩)
      (other.origin ⟨label?', .directive .origin, operands.mapFirst K.expression⟩) := by
  rw [Context.origin, Context.origin, Statement.firstOperand_mapFirst label?]
  cases hfirst : Statement.firstOperand ⟨label?, .directive .origin, operands⟩ with
  | error fault => exact .failed h (hK.nameless (nameless_firstOperand hfirst))
  | ok operand =>
    dsimp only [Except.map, Context.moveTo]
    refine (hK.evaluate h rfl (hadmits rfl operand hfirst)).elim
      (fun hlenient _ _ => .first hlenient _ _ _) (fun hlenient _ _ => .second hlenient _ _ _)
      (fun _ _ hfault => .failed h hfault) ?_
    intro target target' htarget
    exact .done (hK.moved h htarget) (hK.directive .origin (.some htarget))

theorem placeWith (h : K.Knows context other)
    {place : LiteralTable → Nat → Except Fault (Nat × LiteralTable)}
    (hplace : place ∈ [LiteralTable.placeOpen, LiteralTable.placeAll]) :
    K.Results K.Knows (context.placeWith place) (other.placeWith place) := by
  rw [Context.placeWith, Context.placeWith]
  refine (hK.place h place hplace).elim (fun hlenient _ _ => .first hlenient _ _)
    (fun hlenient _ _ => .second hlenient _ _) (fun _ _ hfault => .error hfault) ?_
  rintro ⟨_, literals⟩ ⟨words, literals'⟩ ⟨rfl, hplaced⟩
  dsimp only
  refine (hK.advance (hK.location h) words).elim (fun hlenient _ _ => .first hlenient _ _)
    (fun hlenient _ _ => .second hlenient _ _) (fun _ _ hfault => .error hfault) ?_
  intro next next' hnext
  exact .ok (hK.moved hplaced hnext)

theorem placePool (h : K.Knows context other) :
    K.Results K.Knows context.placePool other.placePool :=
  hK.placeWith h List.mem_cons_self

theorem close (h : K.Knows context other) : K.Results K.Knows context.close other.close := by
  rw [Context.close, Context.close]
  refine (hK.placePool h).elim (fun hlenient _ _ => .first hlenient _ _)
    (fun hlenient _ _ => .second hlenient _ _) (fun _ _ hfault => .error hfault) ?_
  intro placed placed' hplaced
  exact hK.placeWith hplaced (List.mem_cons_of_mem _ List.mem_cons_self)

theorem placing (h : K.Knows context other) (word : Directive)
    {place : Context → Except Fault Context}
    (hplace : K.Results K.Knows (place context) (place other)) :
    K.Outcomes (context.placing word place) (other.placing word place) := by
  rw [Context.placing, Context.placing]
  refine hplace.elim (fun hlenient _ _ => .first hlenient _ _ _)
    (fun hlenient _ _ => .second hlenient _ _ _) (fun _ _ hfault => .failed h hfault) ?_
  intro placed placed' hplaced
  exact .done hplaced (hK.directive word .none)

/-! ### Source lines -/

/-- Statements whose labels are bound correspond if performing them does. -/
theorem afterLabel (h : K.Knows context other) (label? : Option String)
    {perform perform' : Context → Context × Except Fault Record}
    (hperform : ∀ bound bound', K.Knows bound bound' →
      K.Outcomes (perform bound) (perform' bound')) :
    K.Effects (context.afterLabel label? perform)
      (other.afterLabel (label?.map K.label) perform') := by
  obtain ⟨hwarnings, hbound⟩ := hK.bindLabel h (hK.location h) label?
  exact (hperform _ _ hbound).effects hwarnings

theorem equate (h : K.Knows context other) (label? : Option String) {operands : Operands}
    (hadmits : K.AdmitsStatement ⟨label?, .directive .equ, operands⟩) :
    K.Effects (context.equate ⟨label?, .directive .equ, operands⟩)
      (other.equate ⟨label?.map K.label, .directive .equ, operands.mapFirst K.expression⟩) := by
  rw [Context.equate, Context.equate, Statement.firstOperand_mapFirst label?]
  cases label? with
  | none => exact .failed .nil h (hK.nameless fun f => rfl)
  | some label =>
    dsimp only [Option.map_some]
    cases hfirst : Statement.firstOperand ⟨some label, .directive .equ, operands⟩ with
    | error fault => exact .failed .nil h (hK.nameless (nameless_firstOperand hfirst))
    | ok operand =>
      dsimp only [Except.map]
      refine (hK.evaluate h rfl (hadmits rfl operand hfirst)).elim
        (fun hlenient _ _ => .first hlenient _ _ _ _) (fun hlenient _ _ => .second hlenient _ _ _ _)
        (fun _ _ hfault => .failed .nil (hK.enter h label) hfault) ?_
      intro value value' hvalue
      obtain ⟨hwarnings, hbound⟩ := hK.bindName h hvalue label
      exact .done hwarnings hbound (.some (hK.directive .equ (.some hvalue)))

theorem executeStatement (h : K.Knows context other) {statement : Statement}
    (hadmits : K.AdmitsStatement statement) :
    K.Effects (context.executeStatement statement)
      (other.executeStatement (K.statement statement)) := by
  obtain ⟨label?, mnemonic, operands⟩ := statement
  cases mnemonic with
  | operation opcode =>
    exact hK.afterLabel h label? fun bound bound' hbound => hK.instruction hbound opcode operands
  | declaration word =>
    cases word with
    | constant =>
      exact hK.afterLabel h label? fun bound bound' hbound =>
        hK.declareConstant hbound label? _ operands
    | storage =>
      exact hK.afterLabel h label? fun bound bound' hbound =>
        hK.declareStorage hbound label? operands
  | directive word =>
    cases word with
    | start =>
      exact hK.afterLabel h label? fun bound bound' hbound =>
        .failed hbound (hK.nameless fun f => rfl)
    | finish =>
      exact hK.afterLabel h label? fun bound bound' hbound =>
        hK.placing hbound .finish (hK.close hbound)
    | ltorg =>
      exact hK.afterLabel h label? fun bound bound' hbound =>
        hK.placing hbound .ltorg (hK.placePool hbound)
    | origin =>
      exact hK.afterLabel h label? fun bound bound' hbound => hK.origin hbound label? _ hadmits
    | equ => exact hK.equate h label? hadmits

/-- One source line, as both programs have it. -/
theorem execute (h : K.Knows context other) {source : Except Fault SourceLine}
    (hunread : ∀ fault, source = .error fault → fault.Nameless)
    (hadmits : K.AdmitsSource source) :
    K.Effects (context.execute source) (other.execute (source.map K.source)) := by
  rcases hsource : source with fault | text | statement
  · exact .failed .nil h (hK.nameless (hunread fault hsource))
  · exact .done .nil (hK.intern h text) .none
  · exact hK.executeStatement h (hadmits statement hsource)

end Lawful

end Correspondence

end Assembler
