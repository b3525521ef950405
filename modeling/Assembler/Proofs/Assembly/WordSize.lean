import Assembler.Proofs.Assembly.Closing
import Assembler.Proofs.Assembly.Extent
import Assembler.Proofs.Source.Grammar

/-!
# Statements that take a word

An instruction or a constant takes its word before its operands are looked at.  Its label is bound
to the location counter and the counter moves by one, even where the operands are then refused, so
the addresses further down do not depend on them.

That is so as long as there are at most two operands.  With a third one the line is refused before
it is executed: no word is taken, the label is not bound, and all addresses further down are off by
one.

## Main definitions

* `Statement.TakesWord` : the lines of statements that take a word.
* `Scan.KeepsPlace` : a line is given its address and its word.

## Main results

* `Scan.keepsPlace_step` : these lines are given a word exactly when they have at most two operands.
* `Scan.not_keepsPlace_of_threeOperands` : an instruction with three operands.
-/

namespace Assembler

/-! ### Lines -/

/-- A line holds a statement that takes a word: a label if there is one, a spelling of the mnemonic,
and operands, of which there may be any number. -/
structure Statement.TakesWord (line : String) (label? : Option String) (mnemonic : Mnemonic)
    (operands : List String) : Prop where
  takesWord : mnemonic.takesWord = true
  isLabel : ∀ label ∈ label?, IsLabel label
  words : ∃ token, mnemonic.SpelledAs token ∧
    Text.Worded line.toList ((label?.toList ++ token :: operands).map String.toList)

namespace Statement

variable {line token : String} {label? : Option String} {mnemonic : Mnemonic}
  {operands : List String}

private theorem parted_of_isLabel (hlabel : ∀ label ∈ label?, IsLabel label)
    (hmnemonic : IsMnemonic token) (operands : List String) :
    Parted (label?.toList ++ token :: operands) label? token operands := by
  rcases label? with _ | label
  · exact .bare (.inr hmnemonic)
  · exact .labelled (Mnemonic.ofToken?_eq_none_iff.mp (hlabel label rfl).1)

/-- The line is read place by place. -/
theorem TakesWord.ofText_eq (h : TakesWord line label? mnemonic operands) :
    SourceLine.ofText line =
      match Operands.ofList? operands with
      | none => .error (.malformed (.tooManyOperands mnemonic operands.length))
      | some content => .ok (.statement ⟨label?, mnemonic, content⟩) := by
  obtain ⟨token, hspelled, hworded⟩ := h.words
  have htokens : (Text.tokens line.toList).map String.ofList =
      label?.toList ++ token :: operands := by
    rw [← Text.worded_iff.mp hworded, List.map_map]
    simp [Function.comp_def]
  have hparted := parted_of_isLabel h.isLabel ⟨mnemonic, hspelled⟩ operands
  have hliteral : ∀ text, label?.toList ++ token :: operands = [text] →
      beginsLiteral text = false := by
    intro text htext
    by_contra hbegins
    rcases label? with _ | label
    · obtain rfl : token = text := by simpa using (List.cons.inj htext).1
      have hnone := Mnemonic.ofToken?_of_beginsLiteral (by simpa using hbegins)
      rw [Mnemonic.ofToken?_eq_some_iff.mpr hspelled] at hnone
      cases hnone
    · simp at htext
  rw [SourceLine.ofText_eq, htokens, SourceLine.ofTokens_of_not_literal hliteral,
    hparted.ofTokens_eq fun label hlabel => (h.isLabel label hlabel).2, ofParts,
    Mnemonic.ofToken?_eq_some_iff.mpr hspelled]
  dsimp only
  cases Operands.ofList? operands <;> rfl

theorem TakesWord.isBlankText (h : TakesWord line label? mnemonic operands) :
    Text.isBlankText line.toList = false := by
  obtain ⟨token, -, hworded⟩ := h.words
  refine Text.isBlankText_of_tokens_ne_nil ?_
  rw [← Text.worded_iff.mp hworded]
  simp

private theorem ne_start_of_takesWord (h : mnemonic.takesWord = true) :
    mnemonic ≠ .directive .start := by
  rintro rfl
  cases h

end Statement

/-! ### Words -/

namespace Context

variable {context bound after : Context} {statement : Statement} {result : Except Fault Record}

/-- A statement that takes a word moves the counter by it, whether it fails or not.  Once its label
is bound it gives no name an address. -/
theorem Performed.word (h : bound.Performed statement after result)
    (hword : statement.mnemonic.takesWord = true) (hroom : bound.location < maxAddress) :
    after.location = bound.location + 1 ∧
      ∀ name, after.symbols.addressOf? name = bound.symbols.addressOf? name := by
  cases h with
  | refused _ hnone => simp [hword] at hnone
  | full _ _ hfull => omega
  | spoiled => exact ⟨rfl, fun _ => rfl⟩
  | instruction _ _ _ hrefer => exact ⟨hrefer.location_eq, hrefer.addressOf?⟩
  | constant => exact ⟨rfl, fun _ => rfl⟩
  | storage hmnemonic => simp [hmnemonic, Mnemonic.takesWord] at hword
  | origin hmnemonic => simp [hmnemonic, Mnemonic.takesWord] at hword
  | placed hmnemonic => simp [hmnemonic, Mnemonic.takesWord] at hword
  | unplaced hmnemonic => simp [hmnemonic, Mnemonic.takesWord] at hword

theorem Executed.word {effect : Effect} (h : context.Executed (.ok (.statement statement)) effect)
    (hword : statement.mnemonic.takesWord = true) (hroom : context.location < maxAddress) :
    effect.context.location = context.location + 1 ∧
      ∀ label ∈ statement.label,
        effect.context.symbols.addressOf? label = some context.location := by
  cases h with
  | performed _ hresult =>
    obtain ⟨hlocation, haddress⟩ := hresult.word hword (by rwa [bindLabel_location])
    refine ⟨by rw [hlocation, bindLabel_location], fun label hlabel => ?_⟩
    rw [haddress, addressOf?_bindLabel, Option.mem_def.mp hlabel, Option.map_some,
      Option.toList_some, lastBinding?_singleton, if_pos rfl, Option.some_or]
  | incomplete _ hmnemonic => simp [hmnemonic, Mnemonic.takesWord] at hword
  | valueless hmnemonic => simp [hmnemonic, Mnemonic.takesWord] at hword
  | equated hmnemonic => simp [hmnemonic, Mnemonic.takesWord] at hword

end Context

namespace Scan

/-- A line is given a word: its label is bound to the location counter before it, and the counter
moves by one. -/
structure KeepsPlace (scan : Scan) (label? : Option String) (after : Scan) : Prop where
  label : ∀ label ∈ label?, after.context.symbols.addressOf? label = some scan.context.location
  location : after.context.location = scan.context.location + 1

variable {scan : Scan} {line : String} {label? : Option String} {mnemonic : Mnemonic}
  {operands : List String}

/-- A line that cannot be read changes nothing but the list of faults. -/
private theorem step_of_unread (number : Nat) {fault : Fault} (hbody : scan.phase = .body)
    (hblank : Text.isBlankText line.toList = false)
    (hread : SourceLine.ofText line = .error fault) :
    scan.step number line = (⟨[], [⟨number, .error, fault⟩]⟩, scan) := by
  obtain ⟨phase, context⟩ := scan
  subst hbody
  simp [step, hblank, hread, proceed, Context.execute, Trace.ofLine]

/-- A line of a statement that takes a word is given one whatever its operands are, if there are at
most two.  With more of them it is refused, and the scan stays as it was. -/
theorem keepsPlace_step (number : Nat) (hbody : scan.phase = .body)
    (hroom : scan.context.location < maxAddress)
    (hline : Statement.TakesWord line label? mnemonic operands) :
    (operands.length ≤ 2 → scan.KeepsPlace label? (scan.step number line).2) ∧
      (2 < operands.length → scan.step number line =
        (⟨[], [⟨number, .error, .malformed (.tooManyOperands mnemonic operands.length)⟩]⟩,
          scan)) := by
  have hread := hline.ofText_eq
  constructor
  · intro hfew
    obtain ⟨content, hcontent⟩ : ∃ content, Operands.ofList? operands = some content := by
      rw [← Option.ne_none_iff_exists', Ne, Operands.ofList?_eq_none_iff]
      omega
    simp only [hcontent] at hread
    have hreading : scan.phase ≠ .ended := by simp [hbody]
    obtain ⟨warnings, hstep⟩ := step_of_statement number hreading hread
      (Statement.ne_start_of_takesWord hline.takesWord)
    have hexecuted := Context.executed_execute scan.context
      (.ok (.statement ⟨label?, mnemonic, content⟩))
    obtain ⟨hlocation, hlabel⟩ := hexecuted.word hline.takesWord hroom
    rw [hstep]
    exact ⟨hlabel, hlocation⟩
  · intro hmany
    simp only [Operands.ofList?_eq_none_iff.mpr hmany] at hread
    exact step_of_unread number hbody hline.isBlankText hread

/-- The scan after a START alone. -/
def startedScan : Scan :=
  ((Scan.mk .opening {}).step 1 "START 5").2

/-- An instruction with a label. -/
theorem takesWord_addition
    (h : Text.tokens line.toList = ("X" :: "ADD" :: operands).map String.toList) :
    Statement.TakesWord line (some "X") (.operation .add) operands where
  takesWord := rfl
  isLabel label hlabel := by
    obtain rfl := Option.mem_some_iff.mp hlabel
    exact ⟨by decide +kernel, by decide +kernel⟩
  words := ⟨"ADD", by decide +kernel, Text.worded_iff.mpr h.symm⟩

/-- Two bad operands cost the line nothing but its record, three cost it its word. -/
theorem keepsPlace_badRegister :
    startedScan.KeepsPlace (some "X") (startedScan.step 2 "X ADD A 9Z").2 ∧
      (startedScan.step 2 "X ADD A B C").2 = startedScan := by
  have hbody : startedScan.phase = .body := by decide +kernel
  have hroom : startedScan.context.location < maxAddress := by decide +kernel
  have htwo : Statement.TakesWord "X ADD A 9Z" (some "X") (.operation .add) ["A", "9Z"] :=
    takesWord_addition (by decide +kernel)
  have hthree : Statement.TakesWord "X ADD A B C" (some "X") (.operation .add) ["A", "B", "C"] :=
    takesWord_addition (by decide +kernel)
  refine ⟨(keepsPlace_step 2 hbody hroom htwo).1 (by decide), ?_⟩
  rw [(keepsPlace_step 2 hbody hroom hthree).2 (by decide)]

/-- An instruction with three operands is not given its word. -/
theorem not_keepsPlace_of_threeOperands :
    startedScan.phase = .body ∧ startedScan.context.location < maxAddress ∧
      Statement.TakesWord "X ADD A B C" (some "X") (.operation .add) ["A", "B", "C"] ∧
      ¬startedScan.KeepsPlace (some "X") (startedScan.step 2 "X ADD A B C").2 := by
  refine ⟨by decide +kernel, by decide +kernel, takesWord_addition (by decide +kernel),
    fun h => ?_⟩
  have hlocation := h.location
  revert hlocation
  decide +kernel

end Scan

end Assembler
