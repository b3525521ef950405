import Assembler.Proofs.Assembly.Relocation
import Assembler.Proofs.Assembly.Success

/-!
# Programs that differ in their START

Two programs that differ only in the address that their START asks for are one program at two
places, if no ORIGIN and no EQU in them names an address by a numeral and both are read without an
error.  Their records and tables differ by the distance between the two addresses, and so do the
words of the records that refer to a symbol or to a literal.  All other words are equal.

Both addresses must be addresses.  A START that asks for more than the largest address is warned of
and has no effect, so the program behind it stays where it would be without a START.

## Main definitions

* `Restarted` : lines that differ in the address of their START.
* `Assembly.Relocates` : what is assembled at two places.

## Main results

* `Scan.run_restarted`, `scanText_restarted` : what is read behind one START and behind the other.
* `Record.Realized.relocate` : the words of a record at two places.
* `relocates_of_restarted` : the program at two places.
-/

namespace Assembler

/-! ### Lines that differ in their START -/

/-- The first operand is a numeral for an address. -/
def Operands.AskFor (operands : Operands) (address : Nat) : Prop :=
  ∃ operand, operands.first? = some operand ∧ Text.isNumeral operand.toList = true ∧
    Text.numeralValue operand.toList = address

/-- Lines that begin, behind blank ones, with a START for one address, and the same lines with a
START for another. -/
inductive Restarted (start start' : Nat) : List String → List String → Prop
  | blank {line : String} {lines lines' : List String}
      (hblank : Text.isBlankText line.toList = true) (h : Restarted start start' lines lines') :
      Restarted start start' (line :: lines) (line :: lines')
  | start {line line' : String} {label : Option String} {operands operands' : Operands}
      (rest : List String)
      (hread : SourceLine.ofText line = .ok (.statement ⟨label, .directive .start, operands⟩))
      (hread' : SourceLine.ofText line' = .ok (.statement ⟨label, .directive .start, operands'⟩))
      (hasks : operands.AskFor start) (hasks' : operands'.AskFor start') :
      Restarted start start' (line :: rest) (line' :: rest)

theorem Restarted.symm {start start' : Nat} {lines lines' : List String}
    (h : Restarted start start' lines lines') : Restarted start' start lines' lines := by
  induction h with
  | blank hblank _ ih => exact .blank hblank ih
  | start rest hread hread' hasks hasks' => exact .start rest hread' hread hasks' hasks

theorem Restarted.length_eq {start start' : Nat} {lines lines' : List String}
    (h : Restarted start start' lines lines') : lines'.length = lines.length := by
  induction h with
  | blank _ _ ih => exact congrArg Nat.succ ih
  | start => rfl

/-- A numeral within the limit is the address of a START. -/
theorem startAddress_of_askFor {operands : Operands} {address : Nat}
    (hasks : operands.AskFor address) (hlimit : address ≤ maxAddress) :
    startAddress operands = ([], address) := by
  obtain ⟨operand, hoperand, hnumeral, hvalue⟩ := hasks
  have hread : Text.readNumeral? maxAddress operand.toList = some address :=
    Text.readNumeral?_eq_some_iff.mpr ⟨hnumeral, hvalue, hlimit⟩
  rw [startAddress, hoperand]
  dsimp only
  rw [hread]

section

variable {line : String} {label : Option String} {operands : Operands}

private theorem isBlankText_of_ofText {source : SourceLine}
    (hread : SourceLine.ofText line = .ok source) : Text.isBlankText line.toList = false := by
  cases hblank : Text.isBlankText line.toList with
  | false => rfl
  | true =>
    rw [SourceLine.ofText_of_isBlankText hblank] at hread
    cases hread

private theorem handledLines_cons_of_start {number : Nat} {rest : List String}
    (hread : SourceLine.ofText line = .ok (.statement ⟨label, .directive .start, operands⟩)) :
    handledLines number (line :: rest) = (line, number) :: handledLines (number + 1) rest := by
  refine handledLines_cons (isBlankText_of_ofText hread) ?_
  rw [isDirectiveLine, hread]
  rfl

private theorem fixesAddress_of_start
    (hread : SourceLine.ofText line = .ok (.statement ⟨label, .directive .start, operands⟩)) :
    fixesAddress line = false := by
  rw [fixesAddress, hread]
  rfl

end

/-- Lines behind another START name no more addresses. -/
theorem Restarted.fixesAddress {start start' number : Nat} {lines lines' : List String}
    (h : Restarted start start' lines lines')
    (hfixes : ∀ handled ∈ handledLines number lines, fixesAddress handled.1 = false) :
    ∀ handled ∈ handledLines number lines', Assembler.fixesAddress handled.1 = false := by
  induction h generalizing number with
  | blank hblank _ ih =>
    rw [handledLines_cons_of_blank hblank] at hfixes ⊢
    exact ih hfixes
  | start rest hread hread' hasks hasks' =>
    rw [handledLines_cons_of_start hread] at hfixes
    rw [handledLines_cons_of_start hread']
    intro handled hhandled
    obtain rfl | hrest := List.mem_cons.mp hhandled
    · exact fixesAddress_of_start hread'
    · exact hfixes handled (List.mem_cons_of_mem _ hrest)

/-! ### Reading behind a START -/

namespace Scan

/-- A program that has not begun begins with its START. -/
theorem step_of_start {line : String} {label : Option String} {operands : Operands}
    (number : Nat) (context : Context)
    (hread : SourceLine.ofText line = .ok (.statement ⟨label, .directive .start, operands⟩)) :
    step number line ⟨.opening, context⟩ = openWith number label operands context := by
  rw [step, isBlankText_of_ofText hread]
  simp only [Bool.false_eq_true, if_false]
  rw [begin, start?_of_ofText hread]

/-- A program begins at the address that its START asks for. -/
private theorem openWith_restarted {distance start : Nat} {operands operands' : Operands}
    (number : Nat) (label? : Option String) (hasks : operands.AskFor start)
    (hasks' : operands'.AskFor (start + distance)) (hlimit : start + distance ≤ maxAddress) :
    (relocation distance).Readings (openWith number label? operands {})
      (openWith number label? operands' {}) := by
  have hstart := startAddress_of_askFor hasks (Nat.le_of_add_right_le hlimit)
  have hstart' := startAddress_of_askFor hasks' hlimit
  have hopened : (relocation distance).Readings (openWith number label? operands {})
      (openWith number (label?.map id) operands' {}) := by
    apply (lawful_relocation distance).openWith
    · rw [hstart, hstart']
      exact .nil
    · rw [hstart, hstart']
      rfl
    · rw [hstart, hstart']
      rfl
  rwa [Option.map_id] at hopened

/-- Lines behind one START do what the same lines do behind the other. -/
theorem run_restarted {distance start : Nat} {lines lines' : List String} (number : Nat)
    (h : Restarted start (start + distance) lines lines')
    (hlimit : start + distance ≤ maxAddress)
    (hfixes : ∀ handled ∈ handledLines number lines, fixesAddress handled.1 = false) :
    (relocation distance).Readings (run number lines ⟨.opening, {}⟩)
      (run number lines' ⟨.opening, {}⟩) := by
  induction h generalizing number with
  | blank hblank _ ih =>
    rw [handledLines_cons_of_blank hblank] at hfixes
    rw [run_cons, run_cons, step_of_blank hblank]
    exact ih (number + 1) hfixes
  | @start line line' label? operands operands' rest hread hread' hasks hasks' =>
    rw [handledLines_cons_of_start hread] at hfixes
    rw [run_cons, run_cons, step_of_start number {} hread, step_of_start number {} hread']
    have hlawful := lawful_relocation distance
    refine (openWith_restarted number label? hasks hasks' hlimit).append hlawful
      (fun hopened => ?_) (grows_run _ _ _) (grows_run _ _ _)
    refine hlawful.run hopened (fun hopening => by cases hopening)
      (List.forall₂_same.mpr fun line _ => line_relocation distance line) (number + 1) ?_
    exact fun _ handled hhandled =>
      admitsSource_of_fixesAddress distance (hfixes handled (List.mem_cons_of_mem _ hhandled))

end Scan

/-- Programs behind two STARTs are read alike, or one of them has an error. -/
theorem scanText_restarted {distance start : Nat} {text text' : String}
    (h : Restarted start (start + distance) (programLines text) (programLines text'))
    (hlimit : start + distance ≤ maxAddress)
    (hfixes : ∀ handled ∈ handledLines 1 (programLines text), fixesAddress handled.1 = false) :
    (relocation distance).Endings (scanText text {}) (scanText text' {}) :=
  (lawful_relocation distance).scanLines (Scan.run_restarted 1 h hlimit hfixes) h.length_eq

/-! ### Words at two places -/

/-- Whether an operand refers to a row of a table. -/
def Reference.isRow : Reference → Bool
  | symbol _ => true
  | literal _ => true
  | constant _ => false
  | none => false

/-- Whether a record refers to a row of a table. -/
def Record.refersToRow : Record → Bool
  | directive _ _ => false
  | declaration _ _ => false
  | instruction _ _ operand => operand.isRow

section

variable {distance : Nat} {context : Context}

/-- Rows stand at two places, numbers do not. -/
theorem Reference.StandsFor.relocate {reference : Reference} {address address' : Nat}
    (h : reference.StandsFor context address)
    (h' : reference.StandsFor (context.relocate distance) address') :
    address' = address + if reference.isRow then distance else 0 := by
  cases h with
  | @symbol index address row hrow haddress =>
    cases h' with
    | symbol hrow' haddress' =>
      have hmoved := SymbolTable.get?_relocate distance context.symbols index
      rw [hrow, Option.map_some] at hmoved
      obtain rfl := Option.some.inj (hrow'.symm.trans hmoved)
      rw [Symbol.relocate, haddress] at haddress'
      exact (Option.some.inj haddress').symm
  | @literal index address row hrow haddress =>
    cases h' with
    | literal hrow' haddress' =>
      have hmoved := LiteralTable.get?_relocate distance context.literals index
      rw [hrow, Option.map_some] at hmoved
      obtain rfl := Option.some.inj (hrow'.symm.trans hmoved)
      rw [Literal.relocate, haddress] at haddress'
      exact (Option.some.inj haddress').symm
  | constant value =>
    cases h'
    rfl
  | none =>
    cases h'
    rfl

/-- A record stands for the same word at two places, but for the row that it refers to. -/
theorem Record.Realized.relocate {record : Record} {word word' : Word}
    (h : record.Realized context word)
    (h' : (record.relocate distance).Realized (context.relocate distance) word') :
    word'.operation = word.operation ∧ word'.register = word.register ∧
      word'.address = word.address + if record.refersToRow then distance else 0 := by
  cases h with
  | constant hoperation hregister haddress =>
    cases h' with
    | constant hoperation' hregister' haddress' =>
      refine ⟨hoperation'.trans hoperation.symm, hregister'.trans hregister.symm, ?_⟩
      exact haddress'.trans haddress.symm
  | instruction hoperation hregister hreference =>
    cases h' with
    | instruction hoperation' hregister' hreference' =>
      refine ⟨hoperation'.trans hoperation.symm, hregister'.trans hregister.symm, ?_⟩
      exact hreference.relocate hreference'

end

/-! ### Programs at two places -/

private theorem Trace.not_failed_of_forall {trace : Trace}
    (h : ∀ diagnostic ∈ trace.diagnostics, diagnostic.isError = false) : ¬trace.Failed := by
  rintro ⟨diagnostic, hmem, herror⟩
  rw [h diagnostic hmem] at herror
  cases herror

/-- What is assembled at two places.  Records and tables differ by a distance, and so do words on
one line, but for the numbers in them. -/
structure Assembly.Relocates (distance : Nat) (assembly moved : Assembly) : Prop where
  records : moved.records = assembly.records.map (Located.relocate distance)
  context : moved.context = assembly.context.relocate distance
  words : ∀ word ∈ assembly.words, ∀ word' ∈ moved.words, word'.line = word.line →
    ∃ record ∈ assembly.records, record.line = word.line ∧
      word'.address = word.address + distance ∧
      word'.content.operation = word.content.operation ∧
      word'.content.register = word.content.register ∧
      word'.content.address =
        word.content.address + if record.content.refersToRow then distance else 0

/-- A word of a program is that of one of its records. -/
theorem exists_record_of_mem_words {text : String} {word : Located Word}
    (h : word ∈ (assemble text).words) :
    ∃ record ∈ (assemble text).records, word.line = record.line ∧
      word.address = record.address ∧
      record.content.Realized (assemble text).context word.content := by
  rw [words_assemble] at h
  obtain ⟨record, hrecord, hword⟩ := List.mem_filterMap.mp h
  obtain ⟨hline, haddress, hencode⟩ := Context.eq_of_wordOf? hword
  exact ⟨record, hrecord, hline, haddress, Context.realized_of_encode hencode⟩

/-- No line has two records. -/
private theorem record_eq_of_line_eq {text : String} {record record' : Located Record}
    (h : record ∈ (assemble text).records) (h' : record' ∈ (assemble text).records)
    (hline : record.line = record'.line) : record = record' := by
  have hlines : ((assemble text).records.map Located.line).Nodup :=
    List.pairwise_map.mpr ((records_assemble_pairwise text).imp Nat.ne_of_lt)
  exact List.inj_on_of_nodup_map hlines h h' hline

/-- Of two STARTs the further one moves the program to where it is. -/
theorem relocates_of_le {distance start : Nat} {text text' : String}
    (h : Restarted start (start + distance) (programLines text) (programLines text'))
    (hlimit : start + distance ≤ maxAddress)
    (hfixes : ∀ handled ∈ handledLines 1 (programLines text), fixesAddress handled.1 = false)
    (hclean : ¬(scanText text {}).1.Failed) (hclean' : ¬(scanText text' {}).1.Failed) :
    (assemble text).Relocates distance (assemble text') := by
  obtain ⟨hcontext, htraces⟩ := (scanText_restarted h hlimit hfixes).of_clean hclean hclean'
  have hrecords : (assemble text').records =
      (assemble text).records.map (Located.relocate distance) :=
    htraces.records_eq (fun _ _ => id) fun _ _ => id
  have hcontext : (assemble text').context = (assemble text).context.relocate distance := hcontext
  refine ⟨hrecords, hcontext, fun word hword word' hword' hline => ?_⟩
  obtain ⟨record, hrecord, hwordLine, haddress, hrealized⟩ := exists_record_of_mem_words hword
  obtain ⟨moved, hmoved, hwordLine', haddress', hrealized'⟩ := exists_record_of_mem_words hword'
  rw [hrecords] at hmoved
  obtain ⟨other, hother, rfl⟩ := List.mem_map.mp hmoved
  -- both words are those of one record, at its two places
  obtain rfl : record = other := by
    refine record_eq_of_line_eq hrecord hother ?_
    exact hwordLine.symm.trans (hline.symm.trans hwordLine')
  rw [hcontext] at hrealized'
  refine ⟨record, hrecord, hwordLine.symm, ?_, hrealized.relocate hrealized'⟩
  rw [haddress, haddress']
  rfl

/-- Programs that differ only in the address of their START are assembled alike at their two places,
whichever of the two is further on. -/
theorem relocates_of_restarted {start start' : Nat} {text text' : String}
    (h : Restarted start start' (programLines text) (programLines text'))
    (hstart : start ≤ maxAddress) (hstart' : start' ≤ maxAddress)
    (hfixes : ∀ handled ∈ handledLines 1 (programLines text), fixesAddress handled.1 = false)
    (hclean : ¬(scanText text {}).1.Failed) (hclean' : ¬(scanText text' {}).1.Failed) :
    (start ≤ start' → (assemble text).Relocates (start' - start) (assemble text')) ∧
      (start' ≤ start → (assemble text').Relocates (start - start') (assemble text)) := by
  constructor
  · intro hle
    obtain ⟨distance, rfl⟩ := Nat.exists_eq_add_of_le hle
    rw [Nat.add_sub_cancel_left]
    exact relocates_of_le h hstart' hfixes hclean hclean'
  · intro hle
    obtain ⟨distance, rfl⟩ := Nat.exists_eq_add_of_le hle
    rw [Nat.add_sub_cancel_left]
    exact relocates_of_le h.symm hstart (h.fixesAddress hfixes) hclean' hclean

/-- A program with lines of every kind.  Only behind its END a numeral names an address. -/
def movableProgram (start : String) : String :=
  " START " ++ start ++ "\nA ADD AREG B\n SUB BREG ='5'\n LTORG\n ORIGIN A+9\nC EQU A-2\n" ++
    " MULT CREG C\n BC ANY 7\nB DC 7\n END\n ORIGIN 5\n"

/-- The words of `BC` and `DC`, which name no row, are the same at both places. -/
theorem relocates_movableProgram :
    Restarted 10 100 (programLines (movableProgram "10")) (programLines (movableProgram "100")) ∧
      (∀ handled ∈ handledLines 1 (programLines (movableProgram "10")),
        fixesAddress handled.1 = false) ∧
      ¬(scanText (movableProgram "10") {}).1.Failed ∧
      ¬(scanText (movableProgram "100") {}).1.Failed ∧
      (assemble (movableProgram "10")).words.map (fun word => (word.address, word.content.text)) =
        [(10, "+ 01 1 021"), (11, "+ 02 2 012"), (19, "+ 03 3 008"), (20, "+ 07 6 007"),
          (21, "+ 00 0 007")] ∧
      (assemble (movableProgram "100")).words.map (fun word => (word.address, word.content.text)) =
        [(100, "+ 01 1 111"), (101, "+ 02 2 102"), (109, "+ 03 3 098"), (110, "+ 07 6 007"),
          (111, "+ 00 0 007")] ∧
      (assemble (movableProgram "10")).Relocates 90 (assemble (movableProgram "100")) := by
  have hrestarted : Restarted 10 100 (programLines (movableProgram "10"))
      (programLines (movableProgram "100")) := by
    have hlines : programLines (movableProgram "10") =
        " START 10" :: (programLines (movableProgram "10")).tail := by decide +kernel
    have hlines' : programLines (movableProgram "100") =
        " START 100" :: (programLines (movableProgram "10")).tail := by decide +kernel
    have hread : SourceLine.ofText " START 10" =
      .ok (.statement ⟨none, .directive .start, .one "10"⟩) := by decide +kernel
    have hread' : SourceLine.ofText " START 100" =
      .ok (.statement ⟨none, .directive .start, .one "100"⟩) := by decide +kernel
    have hasks : (Operands.one "10").AskFor 10 := ⟨"10", rfl, by decide +kernel, by decide +kernel⟩
    have hasks' : (Operands.one "100").AskFor 100 :=
      ⟨"100", rfl, by decide +kernel, by decide +kernel⟩
    rw [hlines, hlines']
    exact .start _ hread hread' hasks hasks'
  have hfixes : ∀ handled ∈ handledLines 1 (programLines (movableProgram "10")),
      fixesAddress handled.1 = false := by decide +kernel
  have hclean : ¬(scanText (movableProgram "10") {}).1.Failed :=
    Trace.not_failed_of_forall (by decide +kernel)
  have hclean' : ¬(scanText (movableProgram "100") {}).1.Failed :=
    Trace.not_failed_of_forall (by decide +kernel)
  exact ⟨hrestarted, hfixes, hclean, hclean', by decide +kernel, by decide +kernel,
    (relocates_of_restarted hrestarted (by decide) (by decide) hfixes hclean hclean').1
      (by decide)⟩

/-- A START beyond the largest address is no error, and it moves nothing. -/
theorem not_relocates_beyond_maxAddress :
    Restarted 0 4294967296 (programLines "START 0\nEND") (programLines "START 4294967296\nEND") ∧
      (∀ handled ∈ handledLines 1 (programLines "START 0\nEND"),
        fixesAddress handled.1 = false) ∧
      ¬(scanText "START 0\nEND" {}).1.Failed ∧ ¬(scanText "START 4294967296\nEND" {}).1.Failed ∧
      ¬(assemble "START 0\nEND").Relocates 4294967296 (assemble "START 4294967296\nEND") := by
  refine ⟨?_, by decide +kernel, Trace.not_failed_of_forall (by decide +kernel),
    Trace.not_failed_of_forall (by decide +kernel), fun hrelocates => ?_⟩
  · have hlines : programLines "START 0\nEND" = ["START 0", "END"] := by decide +kernel
    have hlines' : programLines "START 4294967296\nEND" = ["START 4294967296", "END"] := by
      decide +kernel
    have hread : SourceLine.ofText "START 0" =
      .ok (.statement ⟨none, .directive .start, .one "0"⟩) := by decide +kernel
    have hread' : SourceLine.ofText "START 4294967296" =
      .ok (.statement ⟨none, .directive .start, .one "4294967296"⟩) := by decide +kernel
    rw [hlines, hlines']
    exact .start _ hread hread' ⟨"0", rfl, by decide +kernel, by decide +kernel⟩
      ⟨"4294967296", rfl, by decide +kernel, by decide +kernel⟩
  · have hlocation : (assemble "START 4294967296\nEND").context.location = 0 := by decide +kernel
    rw [hrelocates.context] at hlocation
    exact absurd hlocation (Nat.succ_ne_zero _)

end Assembler
