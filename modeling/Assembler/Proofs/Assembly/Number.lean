import Assembler.Proofs.Assembly.Evaluation
import Assembler.Proofs.Assembly.Resolution
import Assembler.Proofs.Text.Decimal
import Mathlib.Data.List.DropRight
import Mathlib.Data.Option.Basic

/-!
# Numbers in operands

A number can stand in six kinds of operand: behind START, ORIGIN, EQU, DS and DC, and as what an
instruction addresses.  Each has a reader of its own.  They look at the digits and at the limit in
different orders, a DC first drops the quotation marks around its operand, and ORIGIN, EQU and
instructions take other things than numbers too.  All the same a text is a number to all of them or
to none: it is made of digits, however many, and denotes an address.

## Main definitions

* `WritesNumber` : a text that writes a number.
* `Unquoted` : what is left of a text without the quotation marks around it.
* `Scan.Opened` : a START that sets out from an address.
* `NumberAlike` : a text that is the same number in every operand.

## Main results

* `not_writesNumber_iff` : the texts that write no number.
* `unquoted_iff` : quotation marks are dropped from both ends.
* `numberAlike_operand` : every text is alike in every operand.
-/

namespace Assembler

/-! ### Numbers -/

/-- A text writes a number if it is made of digits and the number is an address. -/
def WritesNumber (written : String) (value : Nat) : Prop :=
  Text.Decimal written.toList value ∧ value ≤ maxAddress

section

variable {written : String} {value other : Nat}

private theorem readNumeral?_eq_some_iff_writesNumber :
    Text.readNumeral? maxAddress written.toList = some value ↔ WritesNumber written value :=
  Text.readNumeral?_eq_some_iff_decimal

instance (written : String) (value : Nat) : Decidable (WritesNumber written value) :=
  decidable_of_iff _ readNumeral?_eq_some_iff_writesNumber

private theorem readNumeral?_eq_none_iff_writesNumber :
    Text.readNumeral? maxAddress written.toList = none ↔ ∀ value, ¬WritesNumber written value := by
  rw [Option.eq_none_iff_forall_ne_some]
  exact forall_congr' fun _ => not_congr readNumeral?_eq_some_iff_writesNumber

namespace WritesNumber

theorem eq (h : WritesNumber written value) (h' : WritesNumber written other) : value = other :=
  h.1.numeralValue_eq.symm.trans h'.1.numeralValue_eq

theorem isNumeral (h : WritesNumber written value) : Text.isNumeral written.toList = true :=
  (Text.decimal_iff.mp h.1).1

private theorem readNumeral?_eq (h : WritesNumber written value) :
    Text.readNumeral? maxAddress written.toList = some value :=
  readNumeral?_eq_some_iff_writesNumber.mpr h

end WritesNumber

/-- No number is written by an empty text, by a text with anything but digits in it, and by digits
that denote too large a number. -/
theorem not_writesNumber_iff :
    (∀ value, ¬WritesNumber written value) ↔
      written = "" ∨ (∃ c ∈ written.toList, c.isDigit = false) ∨
        ∃ value, Text.Decimal written.toList value ∧ maxAddress < value := by
  constructor
  · intro hnone
    by_cases hempty : written = ""
    · exact .inl hempty
    by_cases hdigits : ∀ c ∈ written.toList, c.isDigit = true
    · have hdenotes := Text.decimal_numeralValue (by simpa using hempty) hdigits
      exact .inr (.inr ⟨_, hdenotes, Nat.lt_of_not_le fun hle => hnone _ ⟨hdenotes, hle⟩⟩)
    · push Not at hdigits
      obtain ⟨c, hc, hdigit⟩ := hdigits
      exact .inr (.inl ⟨c, hc, Bool.not_eq_true _ ▸ hdigit⟩)
  · rintro (rfl | ⟨c, hc, hdigit⟩ | ⟨large, hdenotes, hlarge⟩) value ⟨hdecimal, hle⟩
    · exact hdecimal.ne_nil rfl
    · rw [hdecimal.isDigit c hc] at hdigit
      cases hdigit
    · rw [← hdecimal.numeralValue_eq, hdenotes.numeralValue_eq] at hle
      exact absurd hle (Nat.not_le.mpr hlarge)

end

/-! ### Quotation marks -/

/-- What is left of an operand when no quotation mark stands at either end of it any more. -/
structure Unquoted (operand written : String) : Prop where
  marks : ∃ front back, operand.toList =
    List.replicate front '\'' ++ (written.toList ++ List.replicate back '\'')
  first : written.toList.head? ≠ some '\''
  last : written.toList.getLast? ≠ some '\''

section

variable {operand written : String} {mark : Char} {text : List Char}

/-- The marks in front of a text that begins with none are dropped. -/
theorem Text.dropWhile_replicate_append (count : Nat) (h : text.head? ≠ some mark) :
    (List.replicate count mark ++ text).dropWhile (· == mark) = text := by
  rw [List.dropWhile_append_of_pos fun c hc => beq_iff_eq.mpr (List.eq_of_mem_replicate hc)]
  cases text with
  | nil => rfl
  | cons c rest =>
    have hne : c ≠ mark := by simpa using h
    rw [List.dropWhile_cons_of_neg (by simpa using hne)]

private theorem Text.rdropWhile_append_replicate (count : Nat) (h : text.getLast? ≠ some mark) :
    (text ++ List.replicate count mark).rdropWhile (· == mark) = text := by
  rw [List.rdropWhile, List.reverse_append, List.reverse_replicate,
    Text.dropWhile_replicate_append count (by rwa [List.head?_reverse]), List.reverse_reverse]

/-- What is dropped in front are marks, and no mark is left there. -/
theorem Text.exists_replicate_append_dropWhile (mark : Char) (text : List Char) :
    ∃ count, text = List.replicate count mark ++ text.dropWhile (· == mark) ∧
      (text.dropWhile (· == mark)).head? ≠ some mark := by
  induction text with
  | nil => exact ⟨0, rfl, by simp⟩
  | cons c rest ih =>
    by_cases hmark : c = mark
    · obtain ⟨count, hrest, hhead⟩ := ih
      rw [List.dropWhile_cons_of_pos (by simpa using hmark)]
      refine ⟨count + 1, ?_, hhead⟩
      rw [List.replicate_succ, List.cons_append, ← hrest, hmark]
    · rw [List.dropWhile_cons_of_neg (by simpa using hmark)]
      exact ⟨0, rfl, by simpa using hmark⟩

/-- What is left is what remains after dropping marks in front and then behind. -/
theorem unquoted_iff :
    Unquoted operand written ↔
      written.toList = (operand.toList.dropWhile (· == '\'')).rdropWhile (· == '\'') := by
  constructor
  · rintro ⟨⟨front, back, hmarks⟩, hfirst, hlast⟩
    rw [hmarks]
    -- an operand of nothing but marks can be cut in many ways, and nothing is left of it
    by_cases hempty : written.toList = []
    · rw [hempty, List.nil_append, List.replicate_append_replicate,
        ← List.append_nil (List.replicate _ _), Text.dropWhile_replicate_append _ (by simp)]
      rfl
    · have hhead : (written.toList ++ List.replicate back '\'').head? ≠ some '\'' := by
        rwa [List.head?_append_of_ne_nil _ hempty]
      rw [Text.dropWhile_replicate_append front hhead, Text.rdropWhile_append_replicate back hlast]
  · intro hwritten
    obtain ⟨front, hfront, hfirst⟩ := Text.exists_replicate_append_dropWhile '\'' operand.toList
    obtain ⟨back, hback, hlast⟩ := Text.exists_replicate_append_dropWhile '\''
      (operand.toList.dropWhile (· == '\'')).reverse
    have hleft : operand.toList.dropWhile (· == '\'') =
        written.toList ++ List.replicate back '\'' := by
      rw [← List.reverse_reverse (operand.toList.dropWhile (· == '\'')), hback, List.reverse_append,
        List.reverse_replicate, hwritten, List.rdropWhile]
    refine ⟨⟨front, back, by rw [← hleft, ← hfront]⟩, fun hhead => ?_, ?_⟩
    · rw [hleft, List.head?_append, hhead] at hfirst
      exact hfirst rfl
    · rwa [hwritten, List.rdropWhile, List.getLast?_reverse]

/-- Something is left of every operand, and there is no choice in what it is. -/
private theorem existsUnique_unquoted (operand : String) :
    ∃! written, Unquoted operand written := by
  refine ⟨String.ofList ((operand.toList.dropWhile (· == '\'')).rdropWhile (· == '\'')), ?_, ?_⟩
  · exact unquoted_iff.mpr (String.toList_ofList)
  · intro other hother
    rw [← unquoted_iff.mp hother, String.ofList_toList]

end

/-! ### Readers -/

section

variable {written operand : String} {value : Nat}

/-- The reader of DC reads what is left of its operand. -/
theorem constantValue_eq_ok_iff (h : Unquoted operand written) :
    constantValue operand = .ok value ↔ WritesNumber written value := by
  have hunquoted : ((operand.toList.dropWhile (· == '\'')).reverse.dropWhile (· == '\'')).reverse =
      written.toList := (unquoted_iff.mp h).symm
  simp only [constantValue, hunquoted, ← readNumeral?_eq_some_iff_writesNumber]
  cases Text.readNumeral? maxAddress written.toList <;> simp

/-- The reader of DS. -/
private theorem Location.reservation_eq_ok_iff :
    reservation (some written) = .ok value ↔ WritesNumber written value := by
  rw [reservation, ← readNumeral?_eq_some_iff_writesNumber]
  cases Text.readNumeral? maxAddress written.toList <;> simp

/-- The reader of START. -/
theorem startAddress_eq {operands : Operands} (h : operands.first? = some written) :
    (∀ value, WritesNumber written value → startAddress operands = ([], value)) ∧
      ((∀ value, ¬WritesNumber written value) →
        startAddress operands = ([.badOperand (.directive .start) written], 0)) := by
  refine ⟨fun value hvalue => ?_, fun hnone => ?_⟩
  · simp [startAddress, h, hvalue.readNumeral?_eq]
  · simp [startAddress, h, readNumeral?_eq_none_iff_writesNumber.mpr hnone]

namespace Expression

variable {directive : Directive} {symbols : SymbolTable}

/-- No name stands in a number. -/
private theorem not_names_of_writesNumber (h : WritesNumber written value) (name : String) :
    ¬Names written name := by
  intro hname
  obtain ⟨offset, hread⟩ := names_iff.mp hname
  have hnumeral := isNumeral_of_ofText? hread
  rw [h.isNumeral] at hnumeral
  cases hnumeral

/-- The reader of ORIGIN and EQU, which takes names too. -/
theorem evaluate_number_iff :
    evaluate directive written symbols = .ok value ∧ (∀ name, ¬Names written name) ↔
      WritesNumber written value := by
  constructor
  · rintro ⟨hvalue, hnames⟩
    rw [← readNumeral?_eq_some_iff_writesNumber]
    rw [evaluate] at hvalue
    split_ifs at hvalue
    · cases hread : Text.readNumeral? maxAddress written.toList with
      | none => simp [hread] at hvalue
      | some number => simpa [hread] using hvalue
    · cases hread : ofText? written with
      | none => simp [hread] at hvalue
      | some expression =>
        exact absurd (names_iff.mpr ⟨expression.offset, hread⟩) (hnames expression.symbol)
  · intro h
    refine ⟨?_, not_names_of_writesNumber h⟩
    simp [evaluate, h.isNumeral, h.readNumeral?_eq]

end Expression

namespace Context

variable {context : Context}

private theorem refer_of_writesNumber (h : WritesNumber written value) :
    context.refer written = .ok (.constant value, context) := by
  have hliteral : (beginsLiteral written && 1 < written.toList.length) = false := by
    by_contra hbegins
    have hnone : Text.readNumeral? maxAddress written.toList = none :=
      readNumeral?_of_isLiteralOperand (eq_true_of_ne_false hbegins)
    rw [h.readNumeral?_eq] at hnone
    cases hnone
  rw [refer, hliteral, h.isNumeral, h.readNumeral?_eq]
  rfl

/-- The reader of what an instruction addresses, which takes literals and names too. -/
theorem referOption_number_iff {operand? : Option String} (h : operand? = some written) :
    (∃ after, context.referOption operand? = .ok (.constant value, after)) ↔
      WritesNumber written value := by
  rw [h]
  constructor
  · rintro ⟨after, hrefer⟩
    cases referred_of_referOption hrefer with
    | constant hvalue => exact readNumeral?_eq_some_iff_writesNumber.mp hvalue
  · intro hvalue
    exact ⟨context, refer_of_writesNumber hvalue⟩

end Context

end

/-! ### Statements -/

namespace Context

variable {context bound : Context} {statement : Statement} {written operand : String}
  {value register : Nat} {opcode : Opcode} {record : Record}

private theorem afterLabel_eq_ok_iff {label? : Option String}
    {perform : Context → Context × Except Fault Record} :
    (context.afterLabel label? perform).result = .ok (some record) ↔
      (perform (context.bindLabel label? context.location).2).2 = .ok record := by
  rw [afterLabel]
  dsimp only
  cases (perform (context.bindLabel label? context.location).2).2 <;> simp [Except.map]

private theorem origin_eq_ok_iff (h : statement.operands.first? = some written) :
    (bound.origin statement).2 = .ok (.directive .origin (some value)) ↔
      Expression.evaluate .origin written bound.symbols = .ok value := by
  rw [origin, firstOperand_eq_ok_iff.mpr h]
  dsimp only [moveTo]
  cases Expression.evaluate .origin written bound.symbols <;> simp

private theorem equate_eq_ok_iff {label : String} (hlabel : statement.label = some label)
    (h : statement.operands.first? = some written) :
    (context.equate statement).result = .ok (some (.directive .equ (some value))) ↔
      Expression.evaluate .equ written context.symbols = .ok value := by
  rw [equate, hlabel]
  dsimp only
  rw [firstOperand_eq_ok_iff.mpr h]
  dsimp only
  cases Expression.evaluate .equ written context.symbols <;> simp

/-- A DS takes as many words as its operand says, if there is room for them. -/
private theorem declareStorage_eq_ok_iff (h : statement.operands.first? = some written) :
    (bound.declareStorage statement).2 = .ok (.declaration .storage value) ↔
      WritesNumber written value ∧ bound.location + value ≤ maxAddress := by
  rw [declareStorage, Location.reserve, h, ← Location.reservation_eq_ok_iff]
  cases hwords : Location.reservation (some written) with
  | error fault => simp
  | ok words =>
    dsimp only
    cases hadvance : Location.advance bound.location words with
    | error fault =>
      obtain ⟨-, hroom⟩ := Location.advance_eq_error_iff.mp hadvance
      simp only [reduceCtorEq, Except.ok.injEq, false_iff, not_and, Nat.not_le]
      rintro rfl
      exact hroom
    | ok next =>
      obtain ⟨-, hroom⟩ := Location.advance_eq_ok_iff.mp hadvance
      simp only [Except.ok.injEq, Record.declaration.injEq, true_and, iff_self_and]
      rintro rfl
      exact hroom

/-- A DC holds what its operand says, if there is room for a word. -/
private theorem declareConstant_eq_ok_iff (h : statement.operands.first? = some operand)
    (hunquoted : Unquoted operand written) :
    (bound.declareConstant statement).2 = .ok (.declaration .constant value) ↔
      WritesNumber written value ∧ bound.location + 1 ≤ maxAddress := by
  rw [declareConstant, firstOperand_eq_ok_iff.mpr h, ← constantValue_eq_ok_iff hunquoted]
  cases hadvance : Location.advance bound.location 1 with
  | error fault =>
    obtain ⟨-, hroom⟩ := Location.advance_eq_error_iff.mp hadvance
    simp [Nat.not_le.mpr hroom]
  | ok next =>
    obtain ⟨-, hroom⟩ := Location.advance_eq_ok_iff.mp hadvance
    dsimp only
    cases constantValue operand <;> simp [Except.map, hroom]

/-- An instruction addresses the number that its operand says, if there is room for a word and the
other operand is in order. -/
private theorem instruction_eq_ok_iff {operands : Operands} (h : operands.memory? = some written) :
    (bound.instruction opcode operands).2 = .ok (.instruction opcode register (.constant value)) ↔
      WritesNumber written value ∧ operands.registerField opcode = .ok register ∧
        bound.location + 1 ≤ maxAddress := by
  rw [instruction]
  cases hadvance : Location.advance bound.location 1 with
  | error fault =>
    obtain ⟨-, hroom⟩ := Location.advance_eq_error_iff.mp hadvance
    simp [Nat.not_le.mpr hroom]
  | ok next =>
    obtain ⟨-, hroom⟩ := Location.advance_eq_ok_iff.mp hadvance
    have hnumber : (∃ after, Context.referOption { bound with location := next } operands.memory? =
        .ok (.constant value, after)) ↔ WritesNumber written value := referOption_number_iff h
    dsimp only
    rw [← hnumber]
    cases operands.registerField opcode with
    | error fault => simp
    | ok field =>
      dsimp only
      cases Context.referOption { bound with location := next } operands.memory? with
      | error fault => simp
      | ok referred =>
        obtain ⟨reference, after⟩ := referred
        simp [hroom, and_comm]

private theorem ne_badOperand_of_mem_bindLabel {label? : Option String} {address : Nat}
    {fault : Fault}
    (h : fault ∈ (context.bindLabel label? address).1) (mnemonic : Mnemonic) (written : String) :
    fault ≠ .badOperand mnemonic written := by
  cases label? with
  | none => cases h
  | some label =>
    obtain ⟨previous, -, rfl⟩ := Option.mem_map.mp (Option.mem_toList.mp h)
    exact Fault.noConfusion

end Context

/-! ### START -/

namespace Scan

/-- A START in front of a program that begins at an address. -/
structure Opened (opened : Trace × Scan) (line value : Nat) : Prop where
  start : opened.2.context.start = value
  location : opened.2.context.location = value
  records : opened.1.records = [⟨line, value, .directive .start (some value)⟩]

/-- The warning that the operand of a START is not used. -/
def startWarning (line : Nat) (written : String) : Diagnostic :=
  ⟨line, .warning, .badOperand (.directive .start) written⟩

variable {line value : Nat} {label : Option String} {operands : Operands} {written : String}

private theorem opened_openWith {unusable : List Fault}
    (h : startAddress operands = (unusable, value))
    (line : Nat) (label : Option String) (context : Context) :
    Opened (openWith line label operands context) line value := by
  rw [openWith, h]
  exact ⟨Context.bindLabel_start _ _ _, Context.bindLabel_location _ _ _, rfl⟩

private theorem startWarning_mem_openWith_iff {unusable : List Fault}
    (h : startAddress operands = (unusable, value)) (context : Context) :
    startWarning line written ∈ (openWith line label operands context).1.diagnostics ↔
      .badOperand (.directive .start) written ∈ unusable := by
  rw [openWith, h]
  simp only [Trace.ofLine, List.mem_map, List.mem_append, startWarning, Diagnostic.mk.injEq]
  constructor
  · rintro ⟨fault, hunusable | hrebound, -, -, rfl⟩
    · exact hunusable
    · exact absurd rfl (Context.ne_badOperand_of_mem_bindLabel hrebound _ _)
  · intro hunusable
    exact ⟨_, .inl hunusable, trivial, trivial, rfl⟩

/-- A START takes its operand for a number exactly when one is written there. -/
theorem opened_openWith_iff (h : operands.first? = some written) (context : Context) :
    (Opened (openWith line label operands context) line value ∧
        startWarning line written ∉ (openWith line label operands context).1.diagnostics) ↔
      WritesNumber written value := by
  obtain ⟨hnumber, hnone⟩ := startAddress_eq h
  -- the warning tells a 0 that is written from the 0 that stands in for an unusable operand
  by_cases hwritten : ∃ number, WritesNumber written number
  · obtain ⟨number, hwritten⟩ := hwritten
    have haddress := hnumber number hwritten
    have hopened := opened_openWith haddress line label context
    constructor
    · rintro ⟨hother, -⟩
      rwa [← hother.start, hopened.start]
    · intro hvalue
      rw [startWarning_mem_openWith_iff haddress]
      exact ⟨hvalue.eq hwritten ▸ hopened, List.not_mem_nil⟩
  · push Not at hwritten
    have haddress := hnone hwritten
    rw [startWarning_mem_openWith_iff haddress]
    exact iff_of_false (fun hopened => hopened.2 List.mem_cons_self) (hwritten value)

end Scan

/-! ### All operands -/

/-- A text that is the same number in every operand, or in none. -/
structure NumberAlike (written : String) : Prop where
  /-- A text writes one number at most. -/
  determined : ∀ value other, WritesNumber written value → WritesNumber written other →
    value = other
  /-- It writes none if it is empty, has anything but digits in it or is too large. -/
  numberless : (∀ value, ¬WritesNumber written value) ↔
    written = "" ∨ (∃ c ∈ written.toList, c.isDigit = false) ∨
      ∃ value, Text.Decimal written.toList value ∧ maxAddress < value
  /-- A START sets out from the number and does not warn. -/
  start : ∀ line label operands context value, operands.first? = some written →
    (Scan.Opened (Scan.openWith line label operands context) line value ∧
        Scan.startWarning line written ∉
          (Scan.openWith line label operands context).1.diagnostics ↔
      WritesNumber written value)
  /-- Else it warns and sets out from 0. -/
  startless : (∀ value, ¬WritesNumber written value) →
    ∀ line label operands context, operands.first? = some written →
      Scan.Opened (Scan.openWith line label operands context) line 0 ∧
        Scan.startWarning line written ∈ (Scan.openWith line label operands context).1.diagnostics
  /-- An ORIGIN goes to the number.  To any other address it goes by a name. -/
  origin : ∀ (context : Context) (statement : Statement) (value : Nat),
    statement.mnemonic = .directive .origin → statement.operands.first? = some written →
    ((context.executeStatement statement).result = .ok (some (.directive .origin (some value))) ∧
        (∀ name, ¬Expression.Names written name) ↔
      WritesNumber written value)
  equ : ∀ (context : Context) (statement : Statement) (label : String) (value : Nat),
    statement.mnemonic = .directive .equ → statement.label = some label →
    statement.operands.first? = some written →
    ((context.executeStatement statement).result = .ok (some (.directive .equ (some value))) ∧
        (∀ name, ¬Expression.Names written name) ↔
      WritesNumber written value)
  /-- A DS has the number of words, if there is room for them. -/
  storage : ∀ (context : Context) (statement : Statement) (value : Nat),
    statement.mnemonic = .declaration .storage → statement.operands.first? = some written →
    ((context.executeStatement statement).result = .ok (some (.declaration .storage value)) ↔
      WritesNumber written value ∧ context.location + value ≤ maxAddress)
  /-- A DC reads the number in what is left of its operand, and holds it if there is room for a
  word. -/
  constant : ∀ operand value, Unquoted operand written →
    (constantValue operand = .ok value ↔ WritesNumber written value) ∧
    ∀ (context : Context) (statement : Statement),
      statement.mnemonic = .declaration .constant → statement.operands.first? = some operand →
      ((context.executeStatement statement).result = .ok (some (.declaration .constant value)) ↔
        WritesNumber written value ∧ context.location + 1 ≤ maxAddress)
  /-- Something is left of every operand of a DC. -/
  unquoted : ∃! left, Unquoted written left
  /-- An instruction refers to the number, and addresses it if there is room for a word and the
  register in front of it is one. -/
  memory : ∀ (context : Context) (value : Nat),
    ((∃ after, context.refer written = .ok (.constant value, after)) ↔
      WritesNumber written value) ∧
    ∀ (statement : Statement) (opcode : Opcode) (register : Nat),
      statement.mnemonic = .operation opcode → statement.operands.memory? = some written →
      ((context.executeStatement statement).result =
          .ok (some (.instruction opcode register (.constant value))) ↔
        WritesNumber written value ∧ statement.operands.registerField opcode = .ok register ∧
          context.location + 1 ≤ maxAddress)

/-- Every text is the same number in every operand, or in none. -/
theorem numberAlike_operand (written : String) : NumberAlike written where
  determined _ _ := WritesNumber.eq
  numberless := not_writesNumber_iff
  start _ _ _ context _ hoperand := Scan.opened_openWith_iff hoperand context
  startless hnone line label operands context hoperand := by
    have haddress := (startAddress_eq hoperand).2 hnone
    refine ⟨Scan.opened_openWith haddress line label context, ?_⟩
    rw [Scan.startWarning_mem_openWith_iff haddress]
    exact List.mem_cons_self
  origin context statement value hmnemonic hoperand := by
    rw [Context.executeStatement, hmnemonic]
    dsimp only
    rw [Context.afterLabel_eq_ok_iff, Context.origin_eq_ok_iff hoperand]
    exact Expression.evaluate_number_iff
  equ context statement label value hmnemonic hlabel hoperand := by
    rw [Context.executeStatement, hmnemonic]
    dsimp only
    rw [Context.equate_eq_ok_iff hlabel hoperand]
    exact Expression.evaluate_number_iff
  storage context statement value hmnemonic hoperand := by
    rw [Context.executeStatement, hmnemonic]
    dsimp only
    rw [Context.afterLabel_eq_ok_iff, Context.declaration,
      Context.declareStorage_eq_ok_iff hoperand,
      Context.bindLabel_location]
  constant operand value hunquoted := by
    refine ⟨constantValue_eq_ok_iff hunquoted, fun context statement hmnemonic hoperand => ?_⟩
    rw [Context.executeStatement, hmnemonic]
    dsimp only
    rw [Context.afterLabel_eq_ok_iff, Context.declaration,
      Context.declareConstant_eq_ok_iff hoperand hunquoted, Context.bindLabel_location]
  unquoted := existsUnique_unquoted written
  memory context value := by
    refine ⟨Context.referOption_number_iff rfl,
      fun statement opcode register hmnemonic hoperand => ?_⟩
    rw [Context.executeStatement, hmnemonic]
    dsimp only
    rw [Context.afterLabel_eq_ok_iff, Context.instruction_eq_ok_iff hoperand,
      Context.bindLabel_location]

example : WritesNumber "0004294967295" 4294967295 ∧ ¬WritesNumber "4294967296" 4294967296 ∧
    ¬WritesNumber "+5" 5 ∧ ¬WritesNumber "1_0" 10 := by
  decide +kernel

end Assembler
