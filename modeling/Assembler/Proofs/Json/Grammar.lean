import Assembler.Json.Text
import Assembler.Json.Writer
import Assembler.Text.Numeral
import Mathlib.Data.List.Basic

/-!
# Written values are JSON

The grammar of JSON, as far as the writer goes: `null`, natural numbers, strings, arrays and
objects, without white space between their parts.  Everything that is written is in this grammar,
and whatever is in this grammar holds no control character.

## Main definitions

* `IsUnit`, `IsString` : a character inside a string, and strings.
* `IsWhole` : numbers without superfluous zeros.
* `IsValue` : values of any depth.

## Main results

* `IsValue.le_toNat` : a value holds no character below U+0020.
* `isValue_writeObject`, and the lemmas for the other writers : what is written is a value.
-/

namespace Assembler.Json

/-! ### The grammar -/

/-- The texts that stand for one character inside a string. -/
inductive IsUnit : List Char → Prop
  | plain {c : Char} (hcontrol : 0x20 ≤ c.toNat) (hquote : c ≠ '"') (hbackslash : c ≠ '\\') :
      IsUnit [c]
  | letter {c : Char} (h : (escaped? c).isSome) : IsUnit ['\\', c]
  | number {a b c d : Char} (h : ∀ digit ∈ [a, b, c, d], (hexDigit? digit).isSome) :
      IsUnit ['\\', 'u', a, b, c, d]

/-- Units between quotation marks. -/
inductive IsString : List Char → Prop
  | quoted (units : List (List Char)) (h : ∀ unit ∈ units, IsUnit unit) :
      IsString ('"' :: (units.flatten ++ ['"']))

/-- Digits that begin with a zero only if there is no other. -/
structure IsWhole (digits : List Char) : Prop where
  numeral : Text.isNumeral digits = true
  zero : digits.head? = some '0' → digits = ['0']

/-- Values without white space. -/
inductive IsValue : List Char → Prop
  | null : IsValue ['n', 'u', 'l', 'l']
  | natural {digits : List Char} (h : IsWhole digits) : IsValue digits
  | string {text : List Char} (h : IsString text) : IsValue text
  | array (items : List (List Char)) (h : ∀ item ∈ items, IsValue item) :
      IsValue ('[' :: ([','].intercalate items ++ [']']))
  | object (members : List (List Char × List Char)) (hkey : ∀ member ∈ members, IsString member.1)
      (hvalue : ∀ member ∈ members, IsValue member.2) :
      IsValue ('\x7b' ::
        ([','].intercalate (members.map fun (key, value) => key ++ ':' :: value) ++ ['\x7d']))

/-! ### No control characters -/

theorem separated_cons (item : List Char) (items : List (List Char)) :
    separated (item :: items) = item ++ items.flatMap (',' :: ·) := by
  induction items generalizing item with
  | nil => simp [separated]
  | cons next rest ih =>
    rw [List.flatMap_cons, separated, List.intercalate_cons_cons]
    change item ++ [','] ++ separated (next :: rest) = _
    rw [ih, List.append_assoc]
    rfl

/-- A character of separated texts is a comma or one of theirs. -/
theorem mem_separated {items : List (List Char)} {c : Char} (h : c ∈ separated items) :
    c = ',' ∨ ∃ item ∈ items, c ∈ item := by
  cases items with
  | nil => cases h
  | cons item items =>
    rw [separated_cons, List.mem_append, List.mem_flatMap] at h
    obtain hfirst | ⟨other, hother, hmem⟩ := h
    · exact .inr ⟨item, List.mem_cons_self, hfirst⟩
    · refine (List.mem_cons.mp hmem).imp_right fun hrest => ⟨other, ?_, hrest⟩
      exact List.mem_cons_of_mem _ hother

private theorem le_toNat_of_isDigit {c : Char} (h : c.isDigit = true) : 0x20 ≤ c.toNat := by
  rw [Char.isDigit, Bool.and_eq_true, decide_eq_true_eq, decide_eq_true_eq] at h
  have hlower : 48 ≤ c.toNat := h.1
  omega

private theorem hexDigit?_eq_none_of_lt {c : Char} (h : c.toNat < 0x20) : hexDigit? c = none := by
  have hdigit : c.isDigit = false := by
    by_contra hdigit
    exact absurd (le_toNat_of_isDigit (Bool.not_eq_false _ ▸ hdigit)) (Nat.not_le.mpr h)
  have hle : ∀ bound : Char, 0x20 ≤ bound.toNat → ¬bound ≤ c := fun bound hbound hle =>
    absurd (Nat.le_trans hbound hle) (Nat.not_le.mpr h)
  rw [hexDigit?, if_neg (by simp [hdigit]), if_neg fun hletter => hle 'a' (by decide) hletter.1,
    if_neg fun hletter => hle 'A' (by decide) hletter.1]

theorem IsUnit.le_toNat {unit : List Char} (h : IsUnit unit) {c : Char} (hmem : c ∈ unit) :
    0x20 ≤ c.toNat := by
  cases h with
  | plain hcontrol =>
    rw [List.mem_singleton.mp hmem]
    exact hcontrol
  | @letter letter h =>
    have hletter : 0x20 ≤ letter.toNat := by
      unfold escaped? at h
      split at h <;> first | decide | cases h
    simp only [List.mem_cons, List.not_mem_nil, or_false] at hmem
    obtain rfl | rfl := hmem
    · decide
    · exact hletter
  | number h =>
    simp only [List.mem_cons, List.not_mem_nil, or_false] at hmem
    obtain rfl | rfl | hdigit := hmem
    · decide
    · decide
    · by_contra hcontrol
      have hsome := h c (by simpa using hdigit)
      rw [hexDigit?_eq_none_of_lt (Nat.not_le.mp hcontrol)] at hsome
      cases hsome

theorem IsString.le_toNat {text : List Char} (h : IsString text) {c : Char} (hmem : c ∈ text) :
    0x20 ≤ c.toNat := by
  cases h with
  | quoted units h =>
    simp only [List.mem_cons, List.mem_append, List.mem_flatten, List.not_mem_nil, or_false]
      at hmem
    obtain rfl | ⟨unit, hunit, hmem⟩ | rfl := hmem
    · decide
    · exact (h unit hunit).le_toNat hmem
    · decide

/-- A value holds no control character. -/
theorem IsValue.le_toNat {text : List Char} (h : IsValue text) {c : Char} (hmem : c ∈ text) :
    0x20 ≤ c.toNat := by
  induction h with
  | null =>
    simp only [List.mem_cons, List.not_mem_nil, or_false] at hmem
    obtain rfl | rfl | rfl | rfl := hmem <;> decide
  | natural h =>
    have hdigits := h.numeral
    rw [Text.isNumeral, Bool.and_eq_true, List.all_eq_true] at hdigits
    exact le_toNat_of_isDigit (hdigits.2 c hmem)
  | string h => exact h.le_toNat hmem
  | array items _ ih =>
    rw [List.mem_cons, List.mem_append, List.mem_singleton] at hmem
    obtain rfl | hitems | rfl := hmem
    · decide
    · obtain rfl | ⟨item, hitem, hmem⟩ := mem_separated hitems
      · decide
      · exact ih item hitem hmem
    · decide
  | object members hkey _ ih =>
    rw [List.mem_cons, List.mem_append, List.mem_singleton] at hmem
    obtain rfl | hmembers | rfl := hmem
    · decide
    · obtain rfl | ⟨item, hitem, hmem⟩ := mem_separated hmembers
      · decide
      · obtain ⟨member, hmember, rfl⟩ := List.mem_map.mp hitem
        rw [List.mem_append, List.mem_cons] at hmem
        obtain hname | rfl | hvalue := hmem
        · exact (hkey member hmember).le_toNat hname
        · decide
        · exact ih member hmember hvalue
    · decide

/-! ### What is written is a value -/

theorem hexDigit?_digitChar {n : Nat} (h : n < 16) : hexDigit? n.digitChar = some n := by
  have hall : ∀ digit : Fin 16, hexDigit? digit.val.digitChar = some digit.val := by decide
  exact hall ⟨n, h⟩

/-- A character is written as a unit. -/
private theorem isUnit_escape (c : Char) : IsUnit (escape c) := by
  rw [escape]
  split_ifs with hquote hbackslash _ _ _ _ _ hcontrol
  · exact .letter rfl
  · exact .letter rfl
  · exact .letter rfl
  · exact .letter rfl
  · exact .letter rfl
  · exact .letter rfl
  · exact .letter rfl
  · refine .number fun digit hdigit => ?_
    simp only [List.mem_cons, List.not_mem_nil, or_false] at hdigit
    obtain rfl | rfl | rfl | rfl := hdigit
    · rfl
    · rfl
    · rw [hexDigit?_digitChar (by omega)]
      rfl
    · rw [hexDigit?_digitChar (by omega)]
      rfl
  · exact .plain (Nat.not_lt.mp hcontrol) hquote hbackslash

private theorem isString_writeString (text : String) : IsString (writeString text) := by
  refine .quoted (text.toList.map escape) fun unit hunit => ?_
  obtain ⟨c, -, rfl⟩ := List.mem_map.mp hunit
  exact isUnit_escape c

/-- Only zero begins with a zero. -/
private theorem toDigits_eq_of_head? {n : Nat} (h : (Nat.toDigits 10 n).head? = some '0') :
    Nat.toDigits 10 n = ['0'] := by
  induction n using Nat.strongRecOn with
  | ind n ih =>
    by_cases hsmall : n < 10
    · rw [Nat.toDigits_of_lt_base hsmall] at h ⊢
      rw [Option.some.inj h]
    · have hlarge := Nat.not_lt.mp hsmall
      rw [Nat.toDigits_of_base_le (by decide) hlarge,
        List.head?_append_of_ne_nil _ Nat.toDigits_ne_nil] at h
      have hzero := congrArg Text.numeralValue (ih (n / 10) (by omega) h)
      rw [Text.numeralValue_toDigits] at hzero
      have hvalue : Text.numeralValue ['0'] = 0 := rfl
      omega

theorem isWhole_writeNatural (n : Nat) : IsWhole (writeNatural n) :=
  ⟨Text.isNumeral_toDigits n, toDigits_eq_of_head?⟩

theorem isValue_writeString (text : String) : IsValue (writeString text) :=
  .string (isString_writeString text)

theorem isValue_writeNatural (n : Nat) : IsValue (writeNatural n) :=
  .natural (isWhole_writeNatural n)

theorem isValue_writeOption {α : Type} {write : α → List Char} (h : ∀ value, IsValue (write value))
    (value? : Option α) : IsValue (writeOption write value?) := by
  cases value? with
  | none => exact .null
  | some value => exact h value

theorem isValue_writeArray {items : List (List Char)} (h : ∀ item ∈ items, IsValue item) :
    IsValue (writeArray items) :=
  .array items h

theorem isValue_writeObject {members : List (String × List Char)}
    (h : ∀ member ∈ members, IsValue member.2) : IsValue (writeObject members) := by
  have hvalue := IsValue.object (members.map fun member => (writeString member.1, member.2))
    (fun member hmember => ?_) fun member hmember => ?_
  · rw [List.map_map] at hvalue
    exact hvalue
  · obtain ⟨other, -, rfl⟩ := List.mem_map.mp hmember
    exact isString_writeString other.1
  · obtain ⟨other, hother, rfl⟩ := List.mem_map.mp hmember
    exact h other hother

end Assembler.Json
