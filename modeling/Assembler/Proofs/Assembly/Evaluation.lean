import Assembler.Proofs.Assembly.Limit
import Assembler.Proofs.Table.Renaming

/-!
# The values of address expressions

An address is written as a numeral, as a name, or as a name with a sign and a numeral behind it.
What such a text denotes is said here over the integers, without saying how it is computed: a
numeral denotes its value, a name its address, and a distance is added to the address or taken from
it.  Whatever comes out denotes nothing unless it is an address.

A text that denotes nothing is a fault.  A name without an address is told by itself, even where the
distance from it would be too large, and in all other cases the whole text is told.

## Main definitions

* `Expression.text`, `Expression.WellFormed` : expressions as they are written.
* `Expression.Names`, `Expression.Denotes` : the name in a text, and the address that it denotes.
* `Expression.Evaluated` : what comes of a text, an address or a fault.
* `Expression.Exact` : a text and what directives make of it.

## Main results

* `Expression.ofText?_eq_some_iff` : the texts that are read as expressions.
* `Expression.evaluated_evaluate` : what comes of every text.
* `Expression.exact_of_bounded` : exactly that comes of it, and ORIGIN goes there.
-/

namespace Assembler

/-! ### Signs -/

/-- The factor that a sign stands for. -/
def Sign.toInt : Sign → Int
  | plus => 1
  | minus => -1

/-- The address at a distance is the one that the integers give, if it is an address. -/
theorem Sign.move?_eq_some_iff {sign : Sign} {base distance address : Nat}
    (hbase : base ≤ maxAddress) :
    sign.move? base distance = some address ↔
      (address : Int) = base + sign.toInt * distance ∧ address ≤ maxAddress := by
  cases sign with
  | plus =>
    simp only [move?, toInt, Option.ite_none_right_eq_some, Option.some.injEq]
    omega
  | minus =>
    simp only [move?, toInt, Option.ite_none_right_eq_some, Option.some.injEq]
    omega

private theorem Sign.continuesName_char (sign : Sign) : Text.continuesName sign.char = false := by
  cases sign <;> decide

namespace Expression

/-! ### Texts -/

/-- An expression as it is written. -/
def text : Expression → String
  | ⟨symbol, none⟩ => symbol
  | ⟨symbol, some (sign, digits)⟩ => symbol ++ String.singleton sign.char ++ digits

/-- The symbol of an expression is a name, and its distance is a numeral. -/
structure WellFormed (expression : Expression) : Prop where
  symbol : Text.isName expression.symbol.toList = true
  digits : ∀ offset ∈ expression.offset, Text.isNumeral offset.2.toList = true

theorem ofText?_text {expression : Expression} (h : expression.WellFormed) :
    ofText? expression.text = some expression := by
  obtain ⟨name, offset⟩ := expression
  have hname : Text.isName name.toList = true := h.symbol
  have hall := Text.continuesName_of_isName hname
  rcases offset with _ | ⟨sign, digits⟩
  · have htake : name.toList.takeWhile Text.continuesName = name.toList :=
      List.takeWhile_eq_self_iff.mpr hall
    have hdrop : name.toList.dropWhile Text.continuesName = [] := List.dropWhile_eq_nil_iff.mpr hall
    simp [ofText?, text, htake, hdrop, hname]
  · have hdigits : Text.isNumeral digits.toList = true := h.digits (sign, digits) rfl
    have hstop : ¬Text.continuesName sign.char = true := by simp [sign.continuesName_char]
    have htext : (text ⟨name, some (sign, digits)⟩).toList =
        name.toList ++ sign.char :: digits.toList := by simp [text]
    have htake : (text ⟨name, some (sign, digits)⟩).toList.takeWhile Text.continuesName =
        name.toList := by
      rw [htext, List.takeWhile_append_of_pos hall, List.takeWhile_cons_of_neg hstop,
        List.append_nil]
    have hdrop : (text ⟨name, some (sign, digits)⟩).toList.dropWhile Text.continuesName =
        sign.char :: digits.toList := by
      rw [htext, List.dropWhile_append_of_pos hall, List.dropWhile_cons_of_neg hstop]
    unfold ofText?
    simp only [htake, hdrop, hname, hdigits, if_true, String.ofList_toList]
    cases sign <;> simp [Sign.char]

/-- The texts that are read as expressions. -/
theorem ofText?_eq_some_iff {written : String} {expression : Expression} :
    ofText? written = some expression ↔ expression.WellFormed ∧ written = expression.text := by
  constructor
  · intro h
    obtain ⟨name, offset⟩ := expression
    obtain ⟨hname, hsymbol⟩ : Text.isName name.toList = true ∧
        name.toList = written.toList.takeWhile Text.continuesName := symbol_of_ofText? h
    have hwritten := List.takeWhile_append_dropWhile (p := Text.continuesName) (l := written.toList)
    unfold ofText? at h
    dsimp only at h
    rw [← hsymbol] at h hwritten
    rw [if_pos hname, String.ofList_toList] at h
    split at h
    · rename_i hrest
      cases h
      rw [hrest, List.append_nil] at hwritten
      exact ⟨⟨hname, by simp⟩, String.ext hwritten.symm⟩
    · rename_i c digits hrest
      rw [hrest] at hwritten
      have hoffset : ∃ sign : Sign, sign.char = c ∧ Text.isNumeral digits = true ∧
          offset = some (sign, String.ofList digits) := by
        split_ifs at h with hdigits hplus hminus
        · cases h
          exact ⟨.plus, hplus.symm, hdigits, rfl⟩
        · cases h
          exact ⟨.minus, hminus.symm, hdigits, rfl⟩
      obtain ⟨sign, rfl, hdigits, rfl⟩ := hoffset
      refine ⟨⟨hname, ?_⟩, ?_⟩
      · rintro _ ⟨⟩
        rwa [String.toList_ofList]
      · apply String.ext
        simp [text, ← hwritten]
  · rintro ⟨hwell, rfl⟩
    exact ofText?_text hwell

/-! ### What texts denote -/

/-- The name in a text is the whole of it, or a distance follows it. -/
inductive Names : String → String → Prop
  | alone {name : String} (hname : Text.isName name.toList = true) : Names name name
  | distant {name digits : String} (sign : Sign) (hname : Text.isName name.toList = true)
      (hdigits : Text.isNumeral digits.toList = true) :
      Names (name ++ String.singleton sign.char ++ digits) name

/-- The address that a text denotes: a numeral its value, a name its address, and a name with a
distance what the integers give.  Numerals are at most `maxAddress`, and so is the address. -/
inductive Denotes (symbols : SymbolTable) : String → Nat → Prop
  | numeral {digits : String} (hdigits : Text.isNumeral digits.toList = true)
      (hle : Text.numeralValue digits.toList ≤ maxAddress) :
      Denotes symbols digits (Text.numeralValue digits.toList)
  | symbol {name : String} {address : Nat} (hname : Text.isName name.toList = true)
      (haddress : symbols.addressOf? name = some address) : Denotes symbols name address
  | distance {name digits : String} {sign : Sign} {base address : Nat}
      (hname : Text.isName name.toList = true) (hbase : symbols.addressOf? name = some base)
      (hdigits : Text.isNumeral digits.toList = true)
      (hle : Text.numeralValue digits.toList ≤ maxAddress)
      (haddress : (address : Int) = base + sign.toInt * Text.numeralValue digits.toList)
      (hroom : address ≤ maxAddress) :
      Denotes symbols (name ++ String.singleton sign.char ++ digits) address

/-- What comes of a text in the operand of a directive. -/
inductive Evaluated (symbols : SymbolTable) (directive : Directive) (written : String) :
    Except Fault Nat → Prop
  | denoted {address : Nat} (h : Denotes symbols written address) :
      Evaluated symbols directive written (.ok address)
  /-- The name has no address, whatever the distance from it is. -/
  | undefined {name : String} (hname : Names written name)
      (hnone : symbols.addressOf? name = none) :
      Evaluated symbols directive written (.error (.undefinedSymbol name))
  | unusable (hnames : ∀ name, Names written name → (symbols.addressOf? name).isSome = true)
      (hnothing : ∀ address, ¬Denotes symbols written address) :
      Evaluated symbols directive written (.error (.badOperand (.directive directive) written))

variable {written name : String} {symbols : SymbolTable} {directive : Directive} {address : Nat}
  {expression : Expression} {result : Except Fault Nat}

private theorem ofText?_symbol (hname : Text.isName name.toList = true) :
    ofText? name = some ⟨name, none⟩ :=
  ofText?_eq_some_iff.mpr ⟨⟨hname, by simp⟩, rfl⟩

private theorem ofText?_distance {digits : String} (sign : Sign)
    (hname : Text.isName name.toList = true) (hdigits : Text.isNumeral digits.toList = true) :
    ofText? (name ++ String.singleton sign.char ++ digits) = some ⟨name, some (sign, digits)⟩ :=
  ofText?_eq_some_iff.mpr ⟨⟨hname, by simpa using hdigits⟩, rfl⟩

theorem names_iff : Names written name ↔ ∃ offset, ofText? written = some ⟨name, offset⟩ := by
  constructor
  · intro h
    cases h with
    | alone hname => exact ⟨none, ofText?_symbol hname⟩
    | distant sign hname hdigits => exact ⟨_, ofText?_distance sign hname hdigits⟩
  · rintro ⟨_ | ⟨sign, digits⟩, hread⟩
    · obtain ⟨hwell, rfl⟩ := ofText?_eq_some_iff.mp hread
      exact .alone hwell.symbol
    · obtain ⟨hwell, rfl⟩ := ofText?_eq_some_iff.mp hread
      exact .distant sign hwell.symbol (hwell.digits (sign, digits) rfl)

/-- A text that is read as an expression has no other name than its symbol. -/
private theorem Names.eq_symbol (h : Names written name)
    (hread : ofText? written = some expression) : name = expression.symbol := by
  obtain ⟨offset, hsome⟩ := names_iff.mp h
  rw [hread] at hsome
  rw [Option.some.inj hsome]

private theorem evaluate_of_ofText? (directive : Directive) (symbols : SymbolTable)
    (h : ofText? written = some expression) :
    evaluate directive written symbols =
      expression.value symbols (.badOperand (.directive directive) written) := by
  simp [evaluate, isNumeral_of_ofText? h, h]

/-- What a text denotes is what it is evaluated to. -/
theorem Denotes.evaluate_eq (h : Denotes symbols written address) (hsymbols : symbols.Bounded)
    (directive : Directive) : evaluate directive written symbols = .ok address := by
  cases h with
  | numeral hdigits hle =>
    have hread := Text.readNumeral?_eq_some_iff.mpr ⟨hdigits, rfl, hle⟩
    simp [evaluate, hdigits, hread]
  | symbol hname haddress =>
    simp [evaluate_of_ofText? directive symbols (ofText?_symbol hname), value, haddress]
  | @distance _ _ sign _ _ hname hbase hdigits hle haddress hroom =>
    have hdistance := Text.readNumeral?_eq_some_iff.mpr ⟨hdigits, rfl, hle⟩
    have hmove := (Sign.move?_eq_some_iff (hsymbols _ _ hbase)).mpr ⟨haddress, hroom⟩
    rw [evaluate_of_ofText? directive symbols (ofText?_distance sign hname hdigits), value]
    simp [hbase, hdistance, hmove]

/-- The name in a text that has no address is told. -/
theorem Names.evaluate_eq (h : Names written name) (hnone : symbols.addressOf? name = none)
    (directive : Directive) :
    evaluate directive written symbols = .error (.undefinedSymbol name) := by
  obtain ⟨offset, hread⟩ := names_iff.mp h
  simp [evaluate_of_ofText? directive symbols hread, value, hnone]

private theorem evaluated_of_unusable (hsymbols : symbols.Bounded)
    (h : evaluate directive written symbols = .error (.badOperand (.directive directive) written))
    (hnames : ∀ name, Names written name → (symbols.addressOf? name).isSome = true) :
    Evaluated symbols directive written
      (.error (.badOperand (.directive directive) written)) := by
  refine .unusable hnames fun address hdenotes => ?_
  rw [hdenotes.evaluate_eq hsymbols] at h
  cases h

/-- What comes of a text that begins with a name. -/
private theorem evaluated_of_ofText? (hsymbols : symbols.Bounded) (directive : Directive)
    (hread : ofText? written = some expression) :
    Evaluated symbols directive written (evaluate directive written symbols) := by
  obtain ⟨name, offset⟩ := expression
  cases hbase : symbols.addressOf? name with
  | none =>
    have hname := names_iff.mpr ⟨offset, hread⟩
    rw [hname.evaluate_eq hbase]
    exact .undefined hname hbase
  | some base =>
    have hnames : ∀ other, Names written other → (symbols.addressOf? other).isSome = true := by
      intro other hother
      simp [hother.eq_symbol hread, hbase]
    have hvalue := evaluate_of_ofText? directive symbols hread
    obtain ⟨hwell, rfl⟩ := ofText?_eq_some_iff.mp hread
    rcases offset with _ | ⟨sign, digits⟩
    · simp only [value, hbase] at hvalue
      rw [hvalue]
      exact .denoted (.symbol hwell.symbol hbase)
    · cases hmove : (Text.readNumeral? maxAddress digits.toList).bind (sign.move? base) with
      | none =>
        simp only [value, hbase, hmove] at hvalue
        rw [hvalue]
        exact evaluated_of_unusable hsymbols hvalue hnames
      | some address =>
        simp only [value, hbase, hmove] at hvalue
        obtain ⟨distance, hdistance, hmoved⟩ := Option.bind_eq_some_iff.mp hmove
        obtain ⟨hdigits, rfl, hle⟩ := Text.readNumeral?_eq_some_iff.mp hdistance
        obtain ⟨haddress, hroom⟩ := (Sign.move?_eq_some_iff (hsymbols _ _ hbase)).mp hmoved
        rw [hvalue]
        exact .denoted (.distance hwell.symbol hbase hdigits hle haddress hroom)

/-- What comes of any text. -/
theorem evaluated_evaluate (hsymbols : symbols.Bounded) (directive : Directive)
    (written : String) :
    Evaluated symbols directive written (evaluate directive written symbols) := by
  cases hread : ofText? written with
  | some expression => exact evaluated_of_ofText? hsymbols directive hread
  | none =>
    have hnames : ∀ name, Names written name → (symbols.addressOf? name).isSome = true := by
      intro name hname
      obtain ⟨offset, hsome⟩ := names_iff.mp hname
      simp [hread] at hsome
    by_cases hnumeral : Text.isNumeral written.toList = true
    · by_cases hle : Text.numeralValue written.toList ≤ maxAddress
      · have hdenotes : Denotes symbols written _ := .numeral hnumeral hle
        rw [hdenotes.evaluate_eq hsymbols]
        exact .denoted hdenotes
      · have hvalue : evaluate directive written symbols =
            .error (.badOperand (.directive directive) written) := by
          simp [evaluate, hnumeral, Text.readNumeral?, hle]
        rw [hvalue]
        exact evaluated_of_unusable hsymbols hvalue hnames
    · have hvalue : evaluate directive written symbols =
          .error (.badOperand (.directive directive) written) := by
        simp [evaluate, hnumeral, hread]
      rw [hvalue]
      exact evaluated_of_unusable hsymbols hvalue hnames

/-- Nothing else comes of a text than what is listed. -/
theorem evaluate_eq_iff (hsymbols : symbols.Bounded) :
    evaluate directive written symbols = result ↔ Evaluated symbols directive written result := by
  constructor
  · rintro rfl
    exact evaluated_evaluate hsymbols directive written
  · intro h
    cases h with
    | denoted hdenotes => exact hdenotes.evaluate_eq hsymbols directive
    | undefined hname hnone => exact hname.evaluate_eq hnone directive
    | unusable hnames hnothing =>
      have hevaluated := evaluated_evaluate hsymbols directive written
      generalize evaluate directive written symbols = result at hevaluated
      cases hevaluated with
      | denoted hdenotes => exact absurd hdenotes (hnothing _)
      | undefined hname hnone => simpa [hnone] using hnames _ hname
      | unusable => rfl

/-! ### What directives make of them -/

/-- What comes of a text over a symbol table, and where an ORIGIN with that operand goes. -/
structure Exact (symbols : SymbolTable) (written : String) : Prop where
  evaluate_iff : ∀ directive result,
    evaluate directive written symbols = result ↔ Evaluated symbols directive written result
  moves : ∀ (context : Context) (statement : Statement) (address : Nat),
    context.symbols = symbols → statement.operands.first? = some written →
      Denotes symbols written address →
        context.origin statement =
          ({ context with location := address }, .ok (.directive .origin (some address)))
  stays : ∀ (context : Context) (statement : Statement) (fault : Fault),
    context.symbols = symbols → statement.operands.first? = some written →
      Evaluated symbols .origin written (.error fault) →
        context.origin statement = (context, .error fault)

/-- Over addresses within their limit, exactly what is listed comes of every text. -/
theorem exact_of_bounded (hsymbols : symbols.Bounded) (written : String) :
    Exact symbols written where
  evaluate_iff _ _ := evaluate_eq_iff hsymbols
  moves context statement address hcontext hoperand hdenotes := by
    have hvalue := hdenotes.evaluate_eq hsymbols .origin
    rw [← hcontext] at hvalue
    simp [Context.origin, Context.moveTo, Context.firstOperand_eq_ok_iff.mpr hoperand, hvalue]
  stays context statement fault hcontext hoperand hevaluated := by
    have hvalue := (evaluate_eq_iff hsymbols).mpr hevaluated
    rw [← hcontext] at hvalue
    simp [Context.origin, Context.moveTo, Context.firstOperand_eq_ok_iff.mpr hoperand, hvalue]

/-- A table in which one name has an address. -/
def lowTable : SymbolTable :=
  ⟨[⟨"A", some 5, 1⟩, ⟨"B", none, 1⟩]⟩

private theorem bounded_lowTable : lowTable.Bounded := by
  intro name address haddress
  have hmem : address = 5 := by
    simp only [lowTable, SymbolTable.addressOf?, SymbolTable.find?] at haddress
    grind
  rw [hmem]
  decide

/-- Six below five there is no address, and a name without one is told before its distance. -/
theorem exact_lowTable :
    lowTable.Bounded ∧ Exact lowTable "A-5" ∧ Evaluated lowTable .origin "A-5" (.ok 0) ∧
      Evaluated lowTable .equ "A-6" (.error (.badOperand (.directive .equ) "A-6")) ∧
      Evaluated lowTable .equ "B+4294967296" (.error (.undefinedSymbol "B")) := by
  have hzero : evaluate .origin "A-5" lowTable = .ok 0 := by decide +kernel
  have hbelow : evaluate .equ "A-6" lowTable = .error (.badOperand (.directive .equ) "A-6") := by
    decide +kernel
  have hunbound : evaluate .origin "B+4294967296" lowTable = .error (.undefinedSymbol "B") := by
    decide +kernel
  refine ⟨bounded_lowTable, exact_of_bounded bounded_lowTable "A-5", ?_, ?_, ?_⟩
  · exact (evaluate_eq_iff bounded_lowTable).mp hzero
  · exact (evaluate_eq_iff bounded_lowTable).mp hbelow
  · exact (evaluate_eq_iff bounded_lowTable).mp hunbound

end Expression

end Assembler
