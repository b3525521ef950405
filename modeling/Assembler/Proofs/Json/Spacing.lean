import Assembler.Json.Shape
import Assembler.Proofs.Json.Grammar
import Mathlib.Data.List.Forall2

/-!
# White space between the parts of a value

White space may stand around every part of a value, and all readers pass over it first.  A part with
the white space around it is a slot; arrays and objects are made of slots with commas between them.

Behind a value stands white space, a comma, a closing bracket or nothing, so no value can be
mistaken for a part of what follows it.

## Main definitions

* `IsGap`, `Slot` : white space, and parts with white space around them.
* `arrayText`, `objectText` : arrays and objects of texts, with a gap before they are closed.
* `Begins`, `Follows` : how values begin, and what may stand behind them.

## Main results

* `Begins.skipSpace` : the white space in front of a value is passed over, and nothing else.
-/

namespace Assembler.Json

/-- Text that may stand between the parts of a value. -/
def IsGap (gap : List Char) : Prop :=
  ∀ c ∈ gap, isSpace c = true

instance (gap : List Char) : Decidable (IsGap gap) :=
  List.decidableBAll (isSpace · = true) gap

/-- A part of a value, with the text around it. -/
structure Slot where
  front : List Char := []
  part : List Char
  back : List Char := []

namespace Slot

/-- What stands in a slot. -/
def text (slot : Slot) : List Char :=
  slot.front ++ (slot.part ++ slot.back)

/-- A part with nothing around it. -/
def plain (part : List Char) : Slot :=
  ⟨[], part, []⟩

/-- White space stands around the part. -/
structure Spaced (slot : Slot) : Prop where
  front : IsGap slot.front
  back : IsGap slot.back

theorem text_append (slot : Slot) (rest : List Char) :
    slot.text ++ rest = slot.front ++ (slot.part ++ (slot.back ++ rest)) := by
  rw [text, List.append_assoc, List.append_assoc]

@[simp] theorem text_plain (part : List Char) : (plain part).text = part :=
  List.append_nil part

end Slot

/-- A text that stands in a slot whose part has a property. -/
def IsSpaced (isPart : List Char → Prop) (text : List Char) : Prop :=
  ∃ slot : Slot, slot.Spaced ∧ isPart slot.part ∧ text = slot.text

/-- An array of texts, with a gap before it is closed. -/
def arrayText (items : List (List Char)) (gap : List Char) : List Char :=
  '[' :: (separated items ++ (gap ++ [']']))

/-- An object of texts, with a gap before it is closed. -/
def objectText (members : List (List Char)) (gap : List Char) : List Char :=
  '\x7b' :: (separated members ++ (gap ++ ['\x7d']))

/-- A member of an object. -/
def memberText (key value : Slot) : List Char :=
  key.text ++ ':' :: value.text

/-- How a value begins: with a character that cannot be mistaken for space or for the end of an
array. -/
def Begins (text : List Char) : Prop :=
  ∃ c rest, text = c :: rest ∧ isSpace c = false ∧ c ≠ ']'

/-- What may stand behind a value: nothing, or white space, a comma or a closing bracket. -/
def Follows : List Char → Prop
  | [] => True
  | c :: _ => isSpace c = true ∨ c = ',' ∨ c = ']' ∨ c = '\x7d'

/-! ### Gaps -/

theorem isGap_nil : IsGap [] :=
  fun _ hmem => absurd hmem List.not_mem_nil

theorem isGap_append {front back : List Char} (hfront : IsGap front) (hback : IsGap back) :
    IsGap (front ++ back) :=
  fun c hmem => (List.mem_append.mp hmem).elim (hfront c) (hback c)

theorem Slot.Spaced.plain (part : List Char) : (Slot.plain part).Spaced :=
  ⟨isGap_nil, isGap_nil⟩

/-- A text with no white space around it. -/
theorem isSpaced_of_isPart {isPart : List Char → Prop} {part : List Char} (h : isPart part) :
    IsSpaced isPart part :=
  ⟨.plain part, .plain part, h, (Slot.text_plain part).symm⟩

theorem IsSpaced.imp {isPart isOther : List Char → Prop} {text : List Char}
    (h : IsSpaced isPart text) (himp : ∀ part, isPart part → isOther part) :
    IsSpaced isOther text := by
  obtain ⟨slot, hspaced, hpart, htext⟩ := h
  exact ⟨slot, hspaced, himp slot.part hpart, htext⟩

variable {gap text rest : List Char}

theorem skipSpace_append (hgap : IsGap gap) (text : List Char) :
    skipSpace (gap ++ text) = skipSpace text :=
  List.dropWhile_append_of_pos hgap

private theorem skipSpace_cons {c : Char} (h : isSpace c = false) (rest : List Char) :
    skipSpace (c :: rest) = c :: rest := by
  rw [skipSpace, List.dropWhile_cons_of_neg (by simp [h])]

theorem skipSpace_append_cons (hgap : IsGap gap) {c : Char} (h : isSpace c = false)
    (rest : List Char) : skipSpace (gap ++ c :: rest) = c :: rest := by
  rw [skipSpace_append hgap, skipSpace_cons h]

/-- The white space in front of a value is passed over. -/
theorem Begins.skipSpace (h : Begins text) (hgap : IsGap gap) (rest : List Char) :
    skipSpace (gap ++ (text ++ rest)) = text ++ rest := by
  obtain ⟨c, more, rfl, hspace, -⟩ := h
  exact skipSpace_append_cons hgap hspace _

theorem memberText_plain (key : String) (value : List Char) :
    memberText (.plain (writeString key)) (.plain value) = writeMember key value := by
  rw [memberText, Slot.text_plain, Slot.text_plain, writeMember]

/-! ### What follows a value -/

theorem follows_append (hgap : IsGap gap) (hrest : Follows rest) : Follows (gap ++ rest) := by
  cases gap with
  | nil => exact hrest
  | cons c gap => exact .inl (hgap c List.mem_cons_self)

private theorem follows_comma (rest : List Char) : Follows (',' :: rest) :=
  .inr (.inl rfl)

/-- What follows a value begins with none of the characters that a number may go on with. -/
theorem Follows.ne_of_head {c : Char} (h : Follows (c :: rest)) :
    c.isDigit = false ∧ c ≠ '.' ∧ c ≠ 'e' ∧ c ≠ 'E' := by
  obtain hspace | rfl | rfl | rfl := h
  · simp only [isSpace, Bool.or_eq_true, beq_iff_eq] at hspace
    obtain ((rfl | rfl) | rfl) | rfl := hspace <;> decide
  · decide
  · decide
  · decide

/-- Behind a value stand further ones, or the end of what holds them. -/
theorem follows_flatMap {α : Type} (write : α → List Char) (values : List α) (hgap : IsGap gap)
    {close : Char} (hclose : Follows [close]) (rest : List Char) :
    Follows (values.flatMap (fun value => ',' :: write value) ++ (gap ++ close :: rest)) := by
  cases values with
  | nil =>
    rw [List.flatMap_nil, List.nil_append]
    exact follows_append hgap hclose
  | cons value values => exact follows_comma _

/-- What holds of the first of two related values holds throughout the first of two lists. -/
theorem forall_of_forall₂ {α β : Type} {related : α → β → Prop} {holds : α → Prop}
    {values : List α} {others : List β} (h : List.Forall₂ related values others)
    (hholds : ∀ value other, related value other → holds value) :
    ∀ value ∈ values, holds value :=
  ((List.forall₂_and_left values others).mp
    (h.imp fun value other hrelated => ⟨hholds value other hrelated, hrelated⟩)).1

/-- Texts that are not empty are together as long as there are many of them. -/
theorem length_le_flatMap {α : Type} {write : α → List Char} {values : List α}
    (h : ∀ value ∈ values, write value ≠ []) : values.length ≤ (values.flatMap write).length := by
  induction values with
  | nil => exact Nat.le_refl 0
  | cons value values ih =>
    have hpos := List.length_pos_iff.mpr (h value List.mem_cons_self)
    have hrest := ih fun other hother => h other (List.mem_cons_of_mem _ hother)
    rw [List.flatMap_cons, List.length_append, List.length_cons]
    omega

/-- Texts that are not empty are no shorter with commas between them than there are many. -/
theorem length_le_separated {items : List (List Char)} (h : ∀ item ∈ items, item ≠ []) :
    items.length ≤ (separated items).length := by
  cases items with
  | nil => exact Nat.zero_le _
  | cons item items =>
    have hpos := List.length_pos_iff.mpr (h item List.mem_cons_self)
    have hrest : items.length ≤ (items.flatMap (',' :: ·)).length :=
      length_le_flatMap fun other _ => List.cons_ne_nil _ _
    rw [separated_cons, List.length_append, List.length_cons]
    omega

end Assembler.Json
