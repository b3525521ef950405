import Assembler.Proofs.Json.Spacing

/-!
# How numbers are written

A number is written as an optional minus, a whole part without superfluous zeros, and optionally a
fraction and an exponent with a sign of its own.  Such a text is read to its end: it goes on with no
character that may stand behind a value.

## Main definitions

* `fractionText`, `IsSign`, `IsExponent` : the parts of a number that may be missing.
* `IsNumber` : the texts of a number.

## Main results

* `IsNumber.readNumeral_append` : every number is read from its texts.
* `readNumber_writeNatural` : the value of a natural number that was written.
-/

namespace Assembler.Json

/-- The text of a fraction: nothing, if it has no digits. -/
def fractionText : List Char → List Char
  | [] => []
  | digits => '.' :: digits

/-- The texts of the sign of an exponent. -/
inductive IsSign : Bool → List Char → Prop
  | absent : IsSign false []
  | plus : IsSign false ['+']
  | minus : IsSign true ['-']

/-- The texts of an exponent. -/
inductive IsExponent : Option (Bool × List Char) → List Char → Prop
  | absent : IsExponent none []
  | present {mark : Char} {negative : Bool} {sign digits : List Char}
      (hmark : mark = 'e' ∨ mark = 'E') (hsign : IsSign negative sign)
      (hdigits : Text.isNumeral digits = true) :
      IsExponent (some (negative, digits)) (mark :: (sign ++ digits))

/-- The texts of a number. -/
inductive IsNumber : Numeral → List Char → Prop
  | mk {numeral : Numeral} {exponent : List Char} (hwhole : IsWhole numeral.whole)
      (hfraction : ∀ c ∈ numeral.fraction, c.isDigit = true)
      (hexponent : IsExponent numeral.exponent exponent) :
      IsNumber numeral ((if numeral.negative then ['-'] else []) ++
        (numeral.whole ++ (fractionText numeral.fraction ++ exponent)))

/-- A reading goes on with what its first step has read. -/
theorem bind_eq_of_eq_ok {α β : Type} {first : Except Failure α} {next : α → Except Failure β}
    {value : α} (h : first = .ok value) : (first >>= next) = next value := by
  rw [h]
  rfl

variable {digits rest text : List Char} {numeral : Numeral}

/-! ### Digits -/

theorem exists_digit_of_isNumeral (h : Text.isNumeral digits = true) :
    ∃ c more, digits = c :: more ∧ c.isDigit = true ∧ ∀ d ∈ more, d.isDigit = true := by
  cases digits with
  | nil => cases h
  | cons c more =>
    rw [Text.isNumeral, Bool.and_eq_true, List.all_eq_true] at h
    exact ⟨c, more, rfl, h.2 c List.mem_cons_self, fun d hd => h.2 d (List.mem_cons_of_mem _ hd)⟩

/-- Digits are read up to what is none. -/
theorem readDigits_append (atEnd : Failure) (hdigits : Text.isNumeral digits = true)
    (hrest : ∀ c ∈ rest.head?, c.isDigit = false) :
    readDigits atEnd (digits ++ rest) = .ok (digits, rest) := by
  have hstop : rest.takeWhile Char.isDigit = [] ∧ rest.dropWhile Char.isDigit = rest := by
    cases rest with
    | nil => exact ⟨rfl, rfl⟩
    | cons c rest => simp [hrest c rfl]
  obtain ⟨c, more, rfl, hc, hmore⟩ := exists_digit_of_isNumeral hdigits
  rw [List.cons_append, readDigits, if_pos hc, List.takeWhile_append_of_pos hmore,
    List.dropWhile_append_of_pos hmore, hstop.1, hstop.2, List.append_nil]

private theorem readWhole_append (atEnd : Failure) (hwhole : IsWhole digits)
    (hrest : ∀ c ∈ rest.head?, c.isDigit = false) :
    readWhole atEnd (digits ++ rest) = .ok (digits, rest) := by
  rw [readWhole, readDigits_append atEnd hwhole.numeral hrest]
  split
  · rename_i second more _ heq
    obtain ⟨rfl, -⟩ := Prod.mk.inj (Except.ok.inj heq)
    cases hwhole.zero rfl
  · rfl

/-! ### Fractions and exponents -/

theorem Follows.head? (h : Follows rest) {c : Char} (hc : c ∈ rest.head?) :
    c.isDigit = false ∧ c ≠ '.' ∧ c ≠ 'e' ∧ c ≠ 'E' := by
  cases rest with
  | nil => cases hc
  | cons d rest =>
    obtain rfl : d = c := Option.some.inj hc
    exact h.ne_of_head

private theorem readSign_append {negative : Bool} {sign : List Char} (hsign : IsSign negative sign)
    (hdigits : Text.isNumeral digits = true) (rest : List Char) :
    readSign (sign ++ (digits ++ rest)) = (negative, digits ++ rest) := by
  obtain ⟨c, more, rfl, hc, -⟩ := exists_digit_of_isNumeral hdigits
  cases hsign with
  | absent =>
    rw [List.nil_append, List.cons_append, readSign]
    · rintro tail heq
      obtain ⟨rfl, -⟩ := List.cons.inj heq
      cases hc
    · rintro tail heq
      obtain ⟨rfl, -⟩ := List.cons.inj heq
      cases hc
  | plus => rfl
  | minus => rfl

private theorem readExponent_append (atEnd : Failure) {exponent? : Option (Bool × List Char)}
    {exponent : List Char} (h : IsExponent exponent? exponent) (hrest : Follows rest) :
    readExponent atEnd (exponent ++ rest) = .ok (exponent?, rest) := by
  cases h with
  | absent =>
    cases rest with
    | nil => rfl
    | cons c rest =>
      obtain ⟨-, -, hlower, hupper⟩ := hrest.ne_of_head
      rw [List.nil_append, readExponent, if_neg (not_or.mpr ⟨hlower, hupper⟩)]
  | @present mark negative sign digits hmark hsign hdigits =>
    have hread := readDigits_append atEnd hdigits fun c hc => (hrest.head? hc).1
    rw [List.cons_append, List.append_assoc, readExponent, if_pos hmark,
      readSign_append hsign hdigits rest]
    dsimp only
    rw [hread]

/-- The exponent of a number, or what follows it, goes on neither with a digit nor with a point. -/
theorem IsExponent.head?_append {exponent? : Option (Bool × List Char)} {exponent : List Char}
    (h : IsExponent exponent? exponent) (hrest : Follows rest) {c : Char}
    (hc : c ∈ (exponent ++ rest).head?) : c.isDigit = false ∧ c ≠ '.' := by
  cases h with
  | absent => exact ⟨(hrest.head? hc).1, (hrest.head? hc).2.1⟩
  | present hmark =>
    obtain rfl := Option.some.inj hc
    obtain rfl | rfl := hmark <;> decide

private theorem readFraction_append (atEnd : Failure) (hfraction : ∀ c ∈ digits, c.isDigit = true)
    (hrest : ∀ c ∈ rest.head?, c.isDigit = false ∧ c ≠ '.') :
    readFraction atEnd (fractionText digits ++ rest) = .ok (digits, rest) := by
  cases digits with
  | nil =>
    rw [fractionText, List.nil_append, readFraction]
    rintro more rfl
    exact (hrest '.' rfl).2 rfl
  | cons c more =>
    have hnumeral : Text.isNumeral (c :: more) = true := by
      rw [Text.isNumeral, Bool.and_eq_true, List.all_eq_true]
      exact ⟨rfl, hfraction⟩
    exact readDigits_append atEnd hnumeral fun d hd => (hrest d hd).1

/-- The fraction of a number, or what follows it, goes on with no digit. -/
private theorem head?_fractionText_append
    (hrest : ∀ c ∈ rest.head?, c.isDigit = false ∧ c ≠ '.') {c : Char}
    (hc : c ∈ (fractionText digits ++ rest).head?) : c.isDigit = false := by
  cases digits with
  | nil => exact (hrest c hc).1
  | cons d more =>
    obtain rfl := Option.some.inj hc
    rfl

/-! ### Numbers -/

/-- Behind the sign of a number its parts are read one after the other. -/
theorem readParts_append (atEnd : Failure) {exponent : List Char} (negative : Bool)
    (hwhole : IsWhole numeral.whole) (hfraction : ∀ c ∈ numeral.fraction, c.isDigit = true)
    (hexponent : IsExponent numeral.exponent exponent) (hrest : Follows rest) :
    (do
      let (whole, text) ← readWhole atEnd
        (numeral.whole ++ (fractionText numeral.fraction ++ exponent) ++ rest)
      let (fraction, text) ← readFraction atEnd text
      let (exponent, text) ← readExponent atEnd text
      return ((⟨negative, whole, fraction, exponent⟩, text) : Numeral × List Char)) =
      .ok (⟨negative, numeral.whole, numeral.fraction, numeral.exponent⟩, rest) := by
  have hbehind : ∀ c ∈ (exponent ++ rest).head?, c.isDigit = false ∧ c ≠ '.' := fun c hc =>
    hexponent.head?_append hrest hc
  rw [List.append_assoc, List.append_assoc]
  refine (bind_eq_of_eq_ok (readWhole_append atEnd hwhole fun c hc =>
    head?_fractionText_append hbehind hc)).trans ?_
  refine (bind_eq_of_eq_ok (readFraction_append atEnd hfraction hbehind)).trans ?_
  exact bind_eq_of_eq_ok (readExponent_append atEnd hexponent hrest)

/-- Every number is read from its texts. -/
theorem IsNumber.readNumeral_append (h : IsNumber numeral text) (atEnd : Failure)
    (hrest : Follows rest) : readNumeral atEnd (text ++ rest) = .ok (numeral, rest) := by
  obtain ⟨hwhole, hfraction, hexponent⟩ := h
  obtain ⟨negative, whole, fraction, exponent⟩ := numeral
  cases negative with
  | true =>
    rw [if_pos rfl, List.singleton_append, List.cons_append, readNumeral]
    exact readParts_append atEnd true hwhole hfraction hexponent hrest
  | false =>
    rw [if_neg Bool.false_ne_true, List.nil_append, readNumeral]
    · exact readParts_append atEnd false hwhole hfraction hexponent hrest
    · -- a whole part does not begin with a minus
      intro tail heq
      obtain ⟨c, more, hdigits, hc, -⟩ := exists_digit_of_isNumeral hwhole.numeral
      dsimp only at hdigits
      rw [hdigits] at heq
      obtain ⟨rfl, -⟩ := List.cons.inj heq
      cases hc

/-- How a number begins. -/
theorem IsNumber.exists_cons (h : IsNumber numeral text) :
    ∃ c more, text = c :: more ∧ beginsNumber c = true := by
  obtain ⟨hwhole, -, -⟩ := h
  obtain ⟨c, more, hdigits, hc, -⟩ := exists_digit_of_isNumeral hwhole.numeral
  split_ifs
  · exact ⟨'-', _, rfl, rfl⟩
  · refine ⟨c, _, by rw [hdigits]; rfl, ?_⟩
    rw [beginsNumber, hc, Bool.or_true]

/-! ### Natural numbers -/

/-- A number without superfluous zeros is written as it is. -/
theorem isNumber_of_isWhole (h : IsWhole digits) : IsNumber ⟨false, digits, [], none⟩ digits := by
  have hnumber := @IsNumber.mk ⟨false, digits, [], none⟩ [] h
    (fun _ hmem => absurd hmem List.not_mem_nil) .absent
  simpa [fractionText] using hnumber

theorem readNumber_writeNatural {n : Nat} (h : n ≤ Range.count.limit) (hrest : Follows rest) :
    readNumber (writeNatural n ++ rest) = .ok (.natural n, rest) := by
  have hfound : Numeral.found? ⟨false, writeNatural n, [], none⟩ = some (.natural n) := by
    have hvalue : Text.numeralValue (writeNatural n) = n := Text.numeralValue_toDigits n
    rw [Numeral.found?]
    dsimp only
    rw [hvalue]
    exact if_pos h
  have hnumber := isNumber_of_isWhole (isWhole_writeNatural n)
  refine (bind_eq_of_eq_ok (hnumber.readNumeral_append .truncated hrest)).trans ?_
  dsimp only
  rw [hfound]
  rfl

end Assembler.Json
