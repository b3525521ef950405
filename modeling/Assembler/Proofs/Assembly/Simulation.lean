import Assembler.Proofs.Assembly.Parallel
import Assembler.Proofs.Assembly.Resolution

/-!
# Names and the addresses that they stand for

An instruction may address memory by the name of a symbol or by a numeral.  Here the names that
have addresses are spelled out: the numeral of the address takes the place of the name.  The tables
of the two programs are not the same, since names that nothing but operands mention are gone from
the second one and others may stand at other indices.  But line by line the same addresses are
known, the same literals wait, the location counter stands at the same place and the same is
reported; and in the end the records of both give the same words.

This is a correspondence of programs in which the memory operands are spelled in another way, and
records are left that are encoded alike in the end.

## Main definitions

* `spellOperand`, `SourceLine.spelled` : operands and source lines with names spelled out.
* `Context.Agrees` : contexts in which the same addresses are known.
* `Record.Alike` : records that give the same words in the end.
* `spelling` : programs with and without names in their operands.

## Main results

* `lawful_spelling` : tables and operands, with and without names.
* `assemble_of_spelled` : whole programs.
-/

namespace Assembler

/-! ### Spelling names out -/

/-- An operand, in which the numeral of an address takes the place of a name that has one. -/
def spellOperand (addressOf? : String → Option Nat) (operand : String) : String :=
  if Text.isName operand.toList then (addressOf? operand).elim operand Nat.repr else operand

/-- A statement in which the memory operand of an instruction is spelled out. -/
def Statement.spelled (addressOf? : String → Option Nat) (statement : Statement) : Statement :=
  match statement.mnemonic with
  | .operation _ =>
    { statement with operands := statement.operands.mapMemory (spellOperand addressOf?) }
  | _ => statement

/-- A source line in which the memory operand of an instruction is spelled out. -/
def SourceLine.spelled (addressOf? : String → Option Nat) : SourceLine → SourceLine
  | literal text => literal text
  | statement content => statement (content.spelled addressOf?)

theorem Statement.mnemonic_spelled (addressOf? : String → Option Nat) (statement : Statement) :
    (statement.spelled addressOf?).mnemonic = statement.mnemonic := by
  rw [spelled]
  split <;> rfl

theorem Statement.spelled_of_operation {addressOf? : String → Option Nat} {statement : Statement}
    {opcode : Opcode} (h : statement.mnemonic = .operation opcode) :
    statement.spelled addressOf? =
      { statement with operands := statement.operands.mapMemory (spellOperand addressOf?) } := by
  rw [spelled, h]

theorem spellOperand_of_not_name {addressOf? : String → Option Nat} {operand : String}
    (h : ¬Text.isName operand.toList = true) : spellOperand addressOf? operand = operand :=
  if_neg h

/-! ### Contexts in which the same is known -/

namespace Context

/-- Contexts in which the same addresses are known.  Names without an address may be entered in the
one and not in the other. -/
structure Agrees (context other : Context) : Prop where
  start : other.start = context.start
  location : other.location = context.location
  literals : other.literals = context.literals
  addressOf? : ∀ name, other.symbols.addressOf? name = context.symbols.addressOf? name

/-- What two contexts may come to in the end: contexts that have grown from them, agree with each
other, and give every name its target address. -/
structure Ending (target : String → Option Nat) (context other final final' : Context) : Prop where
  grows : context.Grows final
  grows' : other.Grows final'
  agrees : final.Agrees final'
  addressOf? : ∀ name, final.symbols.addressOf? name = target name

variable {context other final final' : Context} {target : String → Option Nat}

/-- What contexts come to is what smaller ones come to. -/
private theorem Ending.of_grows {earlier earlier' : Context}
    (h : Ending target context other final final') (hgrows : earlier.Grows context)
    (hgrows' : earlier'.Grows other) : Ending target earlier earlier' final final' :=
  ⟨hgrows.trans h.grows, hgrows'.trans h.grows', h.agrees, h.addressOf?⟩

end Context

/-- Records that are encoded alike whatever the contexts in which they were left come to. -/
def Record.Alike (target : String → Option Nat) (context other : Context)
    (record record' : Record) : Prop :=
  ∀ final final', Context.Ending target context other final final' →
    final'.encode record' = final.encode record

/-! ### Programs with and without names in their operands -/

/-- Lines that hold the same, but for names that are spelled out. -/
structure SpelledLine (target : String → Option Nat) (line line' : String) : Prop where
  blank : Text.isBlankText line'.toList = Text.isBlankText line.toList
  read : SourceLine.ofText line' = (SourceLine.ofText line).map (SourceLine.spelled target)

/-- Programs in whose operands names are spelled out, so that the same is known. -/
def spelling (target : String → Option Nat) : Correspondence where
  memory := spellOperand target
  Knows := Context.Agrees
  Leaves := Record.Alike target

private theorem source_spelling (target : String → Option Nat) (source : SourceLine) :
    (spelling target).source source = source.spelled target := by
  cases source with
  | literal text => rfl
  | statement content =>
    obtain ⟨label?, word | word | opcode, operands⟩ := content
    · cases word <;> simp [SourceLine.spelled, Statement.spelled, Correspondence.source,
        Correspondence.statement, Correspondence.operands, spelling, Operands.mapFirst_id,
        Mnemonic.takesExpression]
    · simp [SourceLine.spelled, Statement.spelled, Correspondence.source,
        Correspondence.statement, Correspondence.operands, spelling, Mnemonic.takesExpression]
    · simp [SourceLine.spelled, Statement.spelled, Correspondence.source,
        Correspondence.statement, Correspondence.operands, spelling]

theorem SpelledLine.line {target : String → Option Nat} {line line' : String}
    (h : SpelledLine target line line') : (spelling target).Line line line' := by
  refine ⟨h.blank, h.read.trans ?_⟩
  rw [funext (source_spelling target)]

/-! ### Tables and operands -/

/-- Operands that are read alike: the same is known, and the same is referred to in the end. -/
structure ReferredAlike (target : String → Option Nat) (referred referred' : Reference × Context) :
    Prop where
  agrees : referred.2.Agrees referred'.2
  resolve : ∀ final final', Context.Ending target referred.2 referred'.2 final final' →
    final'.resolve referred'.1 = final.resolve referred.1

namespace Context

/-- The numeral of an address refers to that address. -/
private theorem refer_repr (context : Context) {address : Nat} (h : address ≤ maxAddress) :
    context.refer address.repr = .ok (.constant address, context) := by
  have hread := Text.readNumeral?_repr h
  have hliteral : (beginsLiteral address.repr && 1 < address.repr.toList.length) = false := by
    by_contra hbegins
    have hnone : Text.readNumeral? maxAddress address.repr.toList = none :=
      readNumeral?_of_isLiteralOperand (eq_true_of_ne_false hbegins)
    rw [hread] at hnone
    cases hnone
  rw [refer, hliteral, (Text.readNumeral?_eq_some_iff.mp hread).1, hread]
  rfl

namespace Agrees

variable {context other : Context} {target : String → Option Nat} {operand : String}

theorem bindName (h : context.Agrees other) (name : String) (address : Nat) :
    (other.bindName name address).1 = (context.bindName name address).1 ∧
      (context.bindName name address).2.Agrees (other.bindName name address).2 := by
  refine ⟨?_, h.start, h.location, h.literals, fun known => ?_⟩
  · simp only [Context.bindName, SymbolTable.define, h.addressOf?]
  · rw [addressOf?_bindName, addressOf?_bindName, h.addressOf?]

/-- What is not a name refers to the same thing in both contexts. -/
private theorem refer_of_not_name (h : context.Agrees other)
    (hname : ¬Text.isName operand.toList = true) :
    (spelling target).Results (ReferredAlike target) (context.refer operand)
      (other.refer operand) := by
  rw [Context.refer, Context.refer]
  split_ifs with hliteral hnumeral
  · refine .ok ⟨⟨h.start, h.location, ?_, h.addressOf?⟩, fun final final' hending => ?_⟩
    · dsimp only
      rw [h.literals]
    · rw [h.literals, Context.resolve, Context.resolve, hending.agrees.literals]
  · cases Text.readNumeral? maxAddress operand.toList with
    | none => exact .error rfl
    | some value => exact .ok ⟨h, fun _ _ _ => rfl⟩
  · exact .error rfl

/-- A name refers to a symbol, and the numeral that takes its place to the address that the symbol
has in the end. -/
private theorem refer_of_name (h : context.Agrees other)
    (htarget : ∀ name address, target name = some address → address ≤ maxAddress)
    (hname : Text.isName operand.toList = true) :
    (spelling target).Results (ReferredAlike target) (context.refer operand)
      (other.refer (spellOperand target operand)) := by
  have hentered (known : Context) (name : String) :
      (known.symbols.enter operand).addressOf? name = known.symbols.addressOf? name :=
    SymbolTable.addressOf?_enter _ _ _
  have hresolve {final : Context}
      (hgrows : Context.Grows { context with symbols := context.symbols.enter operand } final) :=
    (Referred.symbol hname).resolve_symbol hgrows hname
  rw [spellOperand, if_pos hname, refer_of_isName context hname]
  cases haddress : target operand with
  | none =>
    rw [Option.elim_none, refer_of_isName other hname]
    refine .ok ⟨⟨h.start, h.location, h.literals, fun name => ?_⟩, fun final final' hending => ?_⟩
    · rw [hentered, hentered, h.addressOf?]
    · rw [hresolve hending.grows,
        (Referred.symbol hname).resolve_symbol hending.grows' hname, hending.agrees.addressOf?]
  | some address =>
    rw [Option.elim_some, refer_repr other (htarget operand address haddress)]
    refine .ok ⟨⟨h.start, h.location, h.literals, fun name => ?_⟩, fun final final' hending => ?_⟩
    · rw [hentered, h.addressOf?]
    · rw [hresolve hending.grows, hending.addressOf?, haddress, Context.resolve]

theorem refer (h : context.Agrees other)
    (htarget : ∀ name address, target name = some address → address ≤ maxAddress)
    (operand : String) :
    (spelling target).Results (ReferredAlike target) (context.refer operand)
      (other.refer (spellOperand target operand)) := by
  by_cases hname : Text.isName operand.toList = true
  · exact h.refer_of_name htarget hname
  · rw [spellOperand_of_not_name hname]
    exact h.refer_of_not_name hname

end Agrees

end Context

/-! ### The correspondence -/

/-- Tables and operands are the same with names and without, as far as addresses tell. -/
theorem lawful_spelling {target : String → Option Nat}
    (htarget : ∀ name address, target name = some address → address ≤ maxAddress) :
    (spelling target).Lawful where
  nameless _ := rfl
  location h := h.location.symm
  moved := by
    rintro context other address _ h rfl
    exact ⟨h.start, rfl, h.literals, h.addressOf?⟩
  advance := by
    rintro address _ rfl words
    exact .refl _ (fun _ _ => rfl) fun _ _ => rfl
  bindName := by
    rintro context other address _ h rfl name
    obtain ⟨hwarnings, hbound⟩ := h.bindName name address
    refine ⟨?_, hbound⟩
    change List.Forall₂ Eq (context.bindName name address).1 (other.bindName name address).1
    rw [List.forall₂_eq_eq_eq]
    exact hwarnings.symm
  enter h name := by
    refine ⟨h.start, h.location, h.literals, fun known => ?_⟩
    dsimp only [spelling, id]
    rw [SymbolTable.addressOf?_enter, SymbolTable.addressOf?_enter, h.addressOf?]
  setLength h name length := by
    refine ⟨h.start, h.location, h.literals, fun known => ?_⟩
    dsimp only [spelling, id]
    rw [SymbolTable.addressOf?_setLength, SymbolTable.addressOf?_setLength, h.addressOf?]
  intern h text := by
    refine ⟨h.start, h.location, ?_, h.addressOf?⟩
    dsimp only
    rw [h.literals]
  place h place _ := by
    rw [h.literals, h.location]
    exact .refl _ (fun _ _ => ⟨rfl, h.start, rfl, rfl, h.addressOf?⟩) fun _ _ => rfl
  evaluate h _ _ := by
    simp only [spelling, id, Expression.evaluate, Expression.value, h.addressOf?]
    exact .refl _ (fun _ _ => rfl) fun _ _ => rfl
  refer h operand := by
    refine (h.refer htarget operand).imp fun referred referred' hreferred =>
      ⟨hreferred.agrees, fun opcode register final final' hending => ?_⟩
    rw [Context.encode, Context.encode, hreferred.resolve final final' hending]
  bare _ _ _ _ _ _ := rfl
  directive _ _ _ _ _ := rfl
  declaration word _ _ _ _ := by cases word <;> rfl
  grows h hgrows hgrows' final final' hending :=
    h final final' (hending.of_grows hgrows hgrows')

private theorem opens_spelling (target : String → Option Nat) : (spelling target).Opens :=
  fun h _ => ⟨rfl, rfl, rfl, h.literals, h.addressOf?⟩

/-! ### Whole programs -/

/-- Records of contexts that come to their ends have the same words there. -/
private theorem image_eq_of_places {target : String → Option Nat}
    {context other final final' : Context} {records records' : List (Located Record)}
    (h : List.Forall₂ ((spelling target).Places context other) records records')
    (hending : Context.Ending target context other final final') :
    final'.image records' = final.image records := by
  induction h with
  | nil => rfl
  | cons hplaces _ ih =>
    rw [Context.image, Context.image, ih, hplaces.content final final' hending, hplaces.line,
      ← hplaces.address]

/-- Programs whose lines are the same but for names that are spelled out as the addresses that they
have in the end assemble to the same words, and the same addresses are known in the end. -/
theorem assemble_of_spelled {text text' : String} {target : String → Option Nat}
    (hlines : List.Forall₂ (SpelledLine target) (programLines text) (programLines text'))
    (hbounded : ∀ name address, target name = some address → address ≤ maxAddress)
    (htarget : ∀ name, (assemble text).context.symbols.addressOf? name = target name) :
    (assemble text).context.Agrees (assemble text').context ∧
      (assemble text').words = (assemble text).words ∧
      (assemble text').diagnostics = (assemble text).diagnostics := by
  have hspelled : List.Forall₂ (spelling target).Line (programLines text) (programLines text') :=
    hlines.imp fun _ _ => SpelledLine.line
  have hread := (lawful_spelling hbounded).scanText ⟨rfl, rfl, rfl, fun _ => rfl⟩
    (opens_spelling target) hspelled fun _ _ =>
      Correspondence.admitsSource_of_forall (fun _ => trivial) _
  obtain ⟨hagrees, htraces⟩ := hread.of_strict not_false
  have hagrees : (assemble text).context.Agrees (assemble text').context := hagrees
  have himage : (assemble text').context.image (assemble text').records =
      (assemble text).context.image (assemble text).records :=
    image_eq_of_places htraces.records
      ⟨Context.Grows.refl _, Context.Grows.refl _, hagrees, htarget⟩
  have hdiagnostics : (scanText text' {}).1.diagnostics = (scanText text {}).1.diagnostics :=
    (htraces.diagnostics_eq fun _ _ => Eq.symm).trans (List.map_id _)
  refine ⟨hagrees, congrArg Image.words himage, ?_⟩
  rw [assemble_diagnostics, assemble_diagnostics, hdiagnostics, himage]

end Assembler
