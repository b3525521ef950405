import Assembler.Proofs.Assembly.Parallel
import Assembler.Proofs.Assembly.Resolution
import Assembler.Proofs.Source.Renaming

/-!
# Assembling under other names

No decision of the assembler depends on how a symbol is spelled, only on whether two spellings are
the same.  So a program under other names assembles to the same records and the same words, with the
same literals, pools and addresses.  The symbol table has the same rows under the other names, and
the same faults are found on the same lines.

This is a correspondence of programs in which labels, operands and expressions are spelled under the
other names, and what is known and reported is the same under them.

## Main definitions

* `Context.rename`, `Assembly.rename` : what is known and what is left under other names.
* `Renaming.correspondence` : programs and their texts under other names.
* `Renaming.underscored` : an underscore in front of every name.
* `RenamedAlike` : what a program and its text under other names have in common.

## Main results

* `lawful_correspondence` : tables, operands and expressions under other names.
* `assemble_rename` : assembling commutes with renaming.
* `renamedAlike` : a program and its text under other names come to the same.
-/

namespace Assembler

variable (f : Renaming)

/-! ### What is known and left -/

/-- What is known about a program under other names. -/
def Context.rename (f : Renaming) (context : Context) : Context :=
  { context with symbols := context.symbols.rename f }

/-- A diagnostic under other names. -/
def Diagnostic.rename (f : Renaming) (diagnostic : Diagnostic) : Diagnostic :=
  { diagnostic with fault := diagnostic.fault.rename f }

/-- What lines leave behind under other names.  Records hold indices and no names. -/
def Trace.rename (f : Renaming) (trace : Trace) : Trace where
  records := trace.records
  diagnostics := trace.diagnostics.map (Diagnostic.rename f)

/-- Words and errors under other names. -/
def Image.rename (f : Renaming) (image : Image) : Image where
  words := image.words
  diagnostics := image.diagnostics.map (Diagnostic.rename f)

/-- The result of assembling a program, under other names. -/
def Assembly.rename (f : Renaming) (assembly : Assembly) : Assembly where
  context := assembly.context.rename f
  records := assembly.records
  words := assembly.words
  diagnostics := assembly.diagnostics.map (Diagnostic.rename f)

/-! ### The correspondence -/

/-- A program and its text under other names.  The same is known and reported under them, and the
same records are left. -/
def Renaming.correspondence (f : Renaming) : Correspondence where
  label := f.word
  memory := f.word
  expression := f.expression
  Knows context other := other = context.rename f
  Reports fault fault' := fault' = fault.rename f
  Leaves _ _ record record' := record' = record

theorem RenamedLine.line {f : Renaming} {line line' : String} (h : RenamedLine f line line') :
    f.correspondence.Line line line' := by
  have hsource : f.correspondence.source = SourceLine.rename f := by
    funext source
    cases source <;> rfl
  exact ⟨h.blank, by rw [h.read, hsource]⟩

private theorem Context.bindName_rename (context : Context) (name : String) (address : Nat) :
    (context.rename f).bindName (f.word name) address =
      ((context.bindName name address).1.map (Fault.rename f),
        (context.bindName name address).2.rename f) := by
  simp only [bindName, rename, SymbolTable.define_rename]
  cases (context.symbols.define name address).1.previous <;> rfl

/-- What an operand refers to has the same index under its other name. -/
private theorem Context.refer_rename (context : Context) (operand : String) :
    (context.rename f).refer (f.word operand) =
      ((context.refer operand).map fun referred =>
        (referred.1, referred.2.rename f)).mapError (Fault.rename f) := by
  by_cases hname : Text.isName operand.toList = true
  · have hname' : Text.isName (f.word operand).toList = true := by rwa [f.isName_word]
    rw [refer_of_isName _ hname, refer_of_isName _ hname']
    simp only [rename, SymbolTable.index_rename, SymbolTable.enter_rename]
    rfl
  · rw [f.word_of_not_isName hname, refer, refer]
    split_ifs
    · rfl
    · cases Text.readNumeral? maxAddress operand.toList <;> rfl
    · rfl

/-- Tables and operands are the same under other names. -/
theorem lawful_correspondence : f.correspondence.Lawful where
  nameless h := (h f).symm
  location := by
    rintro context _ rfl
    rfl
  moved := by
    rintro context _ address _ rfl rfl
    rfl
  advance := by
    rintro address _ rfl words
    exact .refl _ (fun _ _ => rfl) fun fault h => (nameless_advance h f).symm
  bindName := by
    rintro context _ address _ rfl rfl name
    rw [Renaming.correspondence, context.bindName_rename]
    refine ⟨?_, rfl⟩
    rw [List.forall₂_map_right_iff, List.forall₂_same]
    exact fun _ _ => rfl
  enter := by
    rintro context _ rfl name
    exact congrArg (Context.mk _ _ · _) (SymbolTable.enter_rename f context.symbols name)
  setLength := by
    rintro context _ rfl name length
    exact congrArg (Context.mk _ _ · _) (SymbolTable.setLength_rename f context.symbols name length)
  intern := by
    rintro context _ rfl text
    rfl
  place := by
    rintro context _ rfl place hplace
    exact .refl _ (fun _ _ => ⟨rfl, rfl⟩) fun fault h => (nameless_place hplace h f).symm
  evaluate := by
    rintro context _ directive text rfl hdirective -
    have hvalue := Expression.evaluate_rename f hdirective text context.symbols
    change f.correspondence.Results Eq _
      (Expression.evaluate directive (f.expression text) (context.symbols.rename f))
    rw [hvalue]
    cases Expression.evaluate directive text context.symbols with
    | ok value => exact .ok rfl
    | error fault => exact .error rfl
  refer := by
    rintro context _ rfl operand
    rw [Renaming.correspondence, context.refer_rename]
    cases context.refer operand with
    | ok referred => exact .ok ⟨rfl, fun _ _ => rfl⟩
    | error fault => exact .error rfl
  bare _ _ _ := rfl
  directive word h := by
    cases h with
    | none => rfl
    | some haddress => exact congrArg (Record.directive word <| some ·) haddress.symm
  declaration _ _ := rfl
  grows h _ _ := h

private theorem opens_correspondence : f.correspondence.Opens := by
  rintro context _ rfl address
  exact ⟨rfl, rfl⟩

/-! ### Encoding -/

namespace Context

variable (context : Context)

private theorem resolve_rename (reference : Reference) :
    (context.rename f).resolve reference =
      (context.resolve reference).mapError (Fault.rename f) := by
  cases reference with
  | symbol index =>
    have hrow : (context.rename f).symbols.get? index =
        (context.symbols.get? index).map (Symbol.rename f) :=
      SymbolTable.get?_rename f context.symbols index
    rw [resolve, resolve, hrow]
    cases context.symbols.get? index with
    | none => rfl
    | some symbol =>
      obtain ⟨name, address, length⟩ := symbol
      cases address <;> rfl
  | literal index =>
    have hliterals : (context.rename f).literals = context.literals := rfl
    rw [resolve, resolve, hliterals]
    cases context.literals.get? index with
    | none => rfl
    | some literal =>
      obtain ⟨text, address⟩ := literal
      cases address <;> rfl
  | constant value => rfl
  | none => rfl

private theorem encode_rename (record : Record) :
    (context.rename f).encode record = (context.encode record).mapError (Fault.rename f) := by
  cases record with
  | directive word operand => rfl
  | declaration word value =>
    cases word with
    | storage => rfl
    | constant =>
      rw [encode, encode]
      cases Word.constant value <;> rfl
  | instruction opcode register operand =>
    rw [encode, encode, resolve_rename]
    cases context.resolve operand with
    | error fault => rfl
    | ok address =>
      dsimp only [Except.mapError]
      cases Word.instruction opcode register address <;> rfl

private theorem image_rename (records : List (Located Record)) :
    (context.rename f).image records = (context.image records).rename f := by
  induction records with
  | nil => rfl
  | cons record rest ih =>
    rw [image, image, ih, encode_rename]
    rcases context.encode record.content with fault | _ | word <;> rfl

end Context

/-! ### Whole programs -/

private theorem forall₂_programLines_rename (text : String) :
    List.Forall₂ (RenamedLine f) (programLines text) (programLines (f.text text)) := by
  rw [programLines, programLines, Renaming.text, String.toList_ofList,
    List.forall₂_map_left_iff, List.forall₂_map_right_iff]
  exact forall₂_lines_rename f text.toList

private theorem scanText_rename (text : String) :
    scanText (f.text text) {} = ((scanText text {}).1.rename f, (scanText text {}).2.rename f) := by
  have hlines :
      List.Forall₂ f.correspondence.Line (programLines text) (programLines (f.text text)) :=
    (forall₂_programLines_rename f text).imp fun _ _ => RenamedLine.line
  have hread := (lawful_correspondence f).scanText rfl (opens_correspondence f) hlines
    fun _ _ => Correspondence.admitsSource_of_forall (fun _ => trivial) _
  generalize scanText text {} = outcome at hread ⊢
  generalize scanText (f.text text) {} = outcome' at hread ⊢
  obtain ⟨hcontext, htraces⟩ := hread.of_strict not_false
  have hrecords := (htraces.records_eq (fun _ _ => Eq.symm) fun _ _ => id).trans (List.map_id _)
  have hdiagnostics := htraces.diagnostics_eq fun _ _ => id
  exact Prod.ext (congrArg₂ Trace.mk hrecords hdiagnostics) hcontext

/-- What assembling a program comes to: reading it, and then encoding its records. -/
theorem assemble_eq (text : String) :
    assemble text =
      ⟨(scanText text {}).2, (scanText text {}).1.records,
        ((scanText text {}).2.image (scanText text {}).1.records).words,
        (scanText text {}).1.diagnostics ++
          ((scanText text {}).2.image (scanText text {}).1.records).diagnostics⟩ :=
  rfl

/-- Assembling a program under other names gives the result under other names. -/
theorem assemble_rename (text : String) :
    assemble (f.text text) = (assemble text).rename f := by
  have hscan := scanText_rename f text
  have himage : (scanText (f.text text) {}).2.image (scanText (f.text text) {}).1.records =
      ((scanText text {}).2.image (scanText text {}).1.records).rename f := by
    rw [hscan]
    exact Context.image_rename f (scanText text {}).2 (scanText text {}).1.records
  rw [assemble_eq, himage, hscan, Assembly.rename, assemble_eq]
  dsimp only
  rw [List.map_append]
  rfl

/-! ### A renaming -/

/-- An underscore in front of every name.  No mnemonic begins with one. -/
def Renaming.underscored : Renaming where
  name old := ⟨String.ofList ('_' :: old.val.toList), by
    rw [String.toList_ofList, Text.isName,
      List.all_eq_true.mpr (Text.continuesName_of_isName old.property)]
    rfl⟩
  injective first second h := by
    have hval := congrArg (fun name : SymbolName => name.val.toList) h
    simp only [String.toList_ofList] at hval
    exact Subtype.ext (String.toList_inj.mp (List.cons.inj hval).2)
  not_mnemonic old := by
    apply Mnemonic.ofToken?_eq_none (c := '_')
    · rw [String.toList_ofList]
      rfl
    · decide

/-- What a program and its text under other names have in common. -/
structure RenamedAlike (f : Renaming) (text : String) : Prop where
  /-- Line by line the statements are those of the program under other names. -/
  lines : List.Forall₂ (RenamedLine f) (programLines text) (programLines (f.text text))
  /-- Records and their indices, and the addresses of the records. -/
  records : (assemble (f.text text)).records = (assemble text).records
  words : (assemble (f.text text)).words = (assemble text).words
  start : (assemble (f.text text)).context.start = (assemble text).context.start
  location : (assemble (f.text text)).context.location = (assemble text).context.location
  /-- The literals and the pools. -/
  literals : (assemble (f.text text)).context.literals = (assemble text).context.literals
  /-- The symbols, each under its other name. -/
  symbols : (assemble (f.text text)).context.symbols.symbols =
    (assemble text).context.symbols.symbols.map fun symbol =>
      { symbol with name := f.word symbol.name }
  /-- The faults are of the same kinds on the same lines, and they weigh the same. -/
  diagnostics : (assemble (f.text text)).diagnostics.map
      (fun diagnostic => (diagnostic.line, diagnostic.severity, diagnostic.fault.kind)) =
    (assemble text).diagnostics.map
      fun diagnostic => (diagnostic.line, diagnostic.severity, diagnostic.fault.kind)

/-- A program and its text under other names come to the same. -/
theorem renamedAlike (text : String) : RenamedAlike f text := by
  have hassemble := assemble_rename f text
  have hkinds : ∀ diagnostics : List Diagnostic,
      (diagnostics.map (Diagnostic.rename f)).map
          (fun diagnostic => (diagnostic.line, diagnostic.severity, diagnostic.fault.kind)) =
        diagnostics.map
          fun diagnostic => (diagnostic.line, diagnostic.severity, diagnostic.fault.kind) := by
    intro diagnostics
    rw [List.map_map]
    apply List.map_congr_left
    intro diagnostic _
    simp [Diagnostic.rename]
  refine ⟨forall₂_programLines_rename f text, ?_, ?_, ?_, ?_, ?_, ?_, ?_⟩
  · rw [hassemble, Assembly.rename]
  · rw [hassemble, Assembly.rename]
  · rw [hassemble, Assembly.rename, Context.rename]
  · rw [hassemble, Assembly.rename, Context.rename]
  · rw [hassemble, Assembly.rename, Context.rename]
  · rw [hassemble, Assembly.rename, Context.rename, SymbolTable.rename]
    rfl
  · rw [hassemble, Assembly.rename]
    exact hkinds _

-- The register is spelled like the label, and a memory operand may be spelled like a mnemonic.
example : Renaming.underscored.text "A START 5\nA MOVER A, A\r\n, ADD AREG ADD\nB EQU A+1" =
    "_A START 5\n_A MOVER A, _A\r\n, ADD AREG _ADD\n_B EQU _A+1" := by
  decide +kernel

end Assembler
