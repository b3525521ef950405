import Assembler.Text.Name
import Assembler.Text.Numeral
import Assembler.Text.Token

/-!
# The characters of names

A name begins with no digit, so it is no numeral, and no character of it separates words.

## Main results

* `isNumeral_of_isName`, `readNumeral?_of_isName` : names are no numerals.
* `continuesName_of_isName`, `isSeparator_of_continuesName` : the characters of a name.
-/

namespace Assembler.Text

variable {c : Char} {text : List Char}

/-- The code points of the characters that may begin a name. -/
theorem toNat_of_beginsName (h : beginsName c = true) :
    (65 ≤ c.toNat ∧ c.toNat ≤ 90) ∨ (97 ≤ c.toNat ∧ c.toNat ≤ 122) ∨ c.toNat = 95 := by
  have hclasses : ((c.isUpper || c.isLower) || c == '_') = true := h
  rw [Bool.or_eq_true, Bool.or_eq_true, beq_iff_eq] at hclasses
  obtain (hupper | hlower) | rfl := hclasses
  · exact .inl (of_decide_eq_true (p := 65 ≤ c.val ∧ c.val ≤ 90) hupper)
  · exact .inr (.inl ((Bool.and_eq_true_iff.mp hlower).imp of_decide_eq_true of_decide_eq_true))
  · exact .inr (.inr rfl)

theorem toNat_of_isDigit (h : c.isDigit = true) : 48 ≤ c.toNat ∧ c.toNat ≤ 57 := by
  simpa [Char.isDigit, UInt32.le_iff_toNat_le] using h

private theorem isDigit_of_beginsName (h : beginsName c = true) : c.isDigit = false := by
  rw [← Bool.not_eq_true]
  intro hdigit
  have hname := toNat_of_beginsName h
  have hrange := toNat_of_isDigit hdigit
  omega

/-- A text that begins like a name is no numeral. -/
theorem isNumeral_of_beginsName (h : beginsName c = true) (rest : List Char) :
    isNumeral (c :: rest) = false := by
  simp [isNumeral, isDigit_of_beginsName h]

theorem isNumeral_of_isName (h : isName text = true) : isNumeral text = false := by
  cases text with
  | nil => rfl
  | cons c rest =>
    rw [isName, Bool.and_eq_true] at h
    exact isNumeral_of_beginsName h.1 rest

/-- A text that begins with no digit is not read as a number. -/
theorem readNumeral?_eq_none {limit : Nat} {rest : List Char} (h : c.isDigit = false) :
    readNumeral? limit (c :: rest) = none := by
  simp [readNumeral?, isNumeral, h]

/-- A name is no numeral. -/
theorem readNumeral?_of_isName {limit : Nat} (h : isName text = true) :
    readNumeral? limit text = none := by
  rw [readNumeral?, isNumeral_of_isName h]
  rfl

theorem continuesName_of_isName (h : isName text = true) : ∀ c ∈ text, continuesName c = true := by
  cases text with
  | nil => cases h
  | cons first rest =>
    simp only [isName, Bool.and_eq_true, List.all_eq_true] at h
    intro c hc
    rcases List.mem_cons.mp hc with rfl | hrest
    · rw [continuesName, h.1, Bool.true_or]
    · exact h.2 c hrest

/-- A character of a name separates no words. -/
theorem isSeparator_of_continuesName (h : continuesName c = true) : isSeparator c = false := by
  have hrange : (65 ≤ c.toNat ∧ c.toNat ≤ 90) ∨ (97 ≤ c.toNat ∧ c.toNat ≤ 122) ∨ c.toNat = 95 ∨
      48 ≤ c.toNat ∧ c.toNat ≤ 57 := by
    rw [continuesName, Bool.or_eq_true] at h
    obtain hname | hdigit := h
    · have hletter := toNat_of_beginsName hname
      omega
    · have hdigits := toNat_of_isDigit hdigit
      omega
  have hcomma : c ≠ ',' := by
    rintro rfl
    exact absurd hrange (by decide)
  have hblank : isBlank c = false := by
    simp only [isBlank, blankRanges, List.any_cons, List.any_nil, Bool.or_eq_false_iff,
      Bool.and_eq_false_iff, decide_eq_false_iff_not, and_true]
    omega
  simp [isSeparator, hblank, hcomma]

end Assembler.Text
