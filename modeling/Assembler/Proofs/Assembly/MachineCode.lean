import Assembler.Proofs.Assembly.Integrity
import Assembler.Proofs.Text.Decimal
import Assembler.Proofs.Text.Row

/-!
# Machine code that is read back

A record calls for a code, a register and a value: those of its instruction, with the number that
its operand stands for, or zeros in front of a constant.  It gives a word exactly when the register
and the value fit their fields.  What is stored of the word is narrower than the numbers that were
called for, and nothing is lost of them.

A word is printed in ten characters whatever it holds, so that machine code is cut into its rows
without looking at them.  From each row the three numbers are recovered.

## Main definitions

* `Word.Parts`, `Record.Calls` : the numbers in a word, and those that a record calls for.
* `Word.Parts.store`, `Word.Stored.text` : a word as it is stored, and what is printed of it.
* `Word.IsRow` : the characters of a row.
* `Word.Parts.ofListing?` : the numbers in the rows of machine code.
* `Context.Readable` : an image whose machine code says all that its records called for.

## Main results

* `Context.encode_of_calls` : when a record gives a word, and what is said when it gives none.
* `Word.isRow_text` : the ten characters of a word.
* `Word.Parts.ofListing?_listing` : the words are recovered from machine code.
* `Context.readable_image` : every image is readable.
-/

namespace Assembler

/-! ### What records call for -/

/-- The three numbers in a word. -/
structure Word.Parts where
  operation : Nat
  register : Nat
  address : Nat
  deriving DecidableEq, Repr

/-- The numbers in a word. -/
def Word.parts (word : Word) : Parts :=
  ⟨word.operation, word.register, word.address⟩

/-- Whether numbers fit the fields of a word. -/
structure Word.Parts.Fit (parts : Word.Parts) : Prop where
  register : parts.register ≤ maxRegisterField
  address : parts.address ≤ maxAddressField

/-- A record calls for numbers in its word, however large they are.  An instruction whose operand
has no address calls for none. -/
inductive Record.Calls (context : Context) : Record → Word.Parts → Prop
  | constant (value : Nat) : Calls context (.declaration .constant value) ⟨0, 0, value⟩
  | instruction {opcode : Opcode} {register address : Nat} {reference : Reference}
      (haddress : reference.StandsFor context address) :
      Calls context (.instruction opcode register reference) ⟨opcode.code, register, address⟩

/-- What the value of a record is called when it does not fit. -/
def Record.valueField : Record → WordField
  | declaration _ _ => .constant
  | _ => .address

namespace Word

variable {word other : Word}

private theorem eq_of_parts_eq (h : word.parts = other.parts) : word = other := by
  cases word
  cases other
  simpa [parts] using h

private theorem fit_parts (word : Word) : word.parts.Fit :=
  ⟨word.register_le, word.address_le⟩

end Word

namespace Context

variable {context : Context} {record : Record} {parts others : Word.Parts}

/-- A record does not call for two different things. -/
private theorem eq_of_calls (h : record.Calls context parts) (h' : record.Calls context others) :
    parts = others := by
  cases h with
  | constant => cases h' with | constant => rfl
  | instruction haddress =>
    cases h' with
    | instruction haddress' =>
      have hresolve := resolve_eq_ok_iff.mpr haddress
      rw [resolve_eq_ok_iff.mpr haddress', Except.ok.injEq] at hresolve
      rw [hresolve]

/-- The word of a record holds what the record calls for. -/
theorem calls_of_encode {word : Word} (h : context.encode record = .ok (some word)) :
    record.Calls context word.parts := by
  cases realized_of_encode h with
  | constant hoperation hregister haddress =>
    rw [Word.parts, hoperation, hregister, haddress]
    exact .constant _
  | instruction hoperation hregister haddress =>
    rw [Word.parts, hoperation, hregister]
    exact .instruction haddress

/-- A record gives a word if what it calls for fits.  Else it gives an error: about the register if
that is too large, and about the value only where the register fits. -/
theorem encode_of_calls (h : record.Calls context parts) :
    ((∃ word, context.encode record = .ok (some word)) ↔ parts.Fit) ∧
      (maxRegisterField < parts.register →
        context.encode record = .error (.overflow ⟨.register, parts.register⟩)) ∧
      (parts.register ≤ maxRegisterField → maxAddressField < parts.address →
        context.encode record = .error (.overflow ⟨record.valueField, parts.address⟩)) := by
  have hword : (∃ word, context.encode record = .ok (some word)) → parts.Fit := by
    rintro ⟨word, hencode⟩
    rw [eq_of_calls h (calls_of_encode hencode)]
    exact word.fit_parts
  cases h with
  | constant value =>
    refine ⟨⟨hword, fun hfit => ?_⟩, fun hlarge => ?_, fun _ hlarge => ?_⟩
    · have hvalue : value ≤ maxAddressField := hfit.address
      simp [encode, Word.constant, hvalue, Except.map, Except.mapError]
    · exact absurd hlarge (Nat.not_lt_zero _)
    · exact encode_constant_eq_error_iff.mpr ⟨hlarge, rfl⟩
  | @instruction opcode register address reference haddress =>
    have hresolve := resolve_eq_ok_iff.mpr haddress
    refine ⟨⟨hword, fun hfit => ?_⟩, fun hlarge => ?_, fun hle hlarge => ?_⟩
    · have hregister : register ≤ maxRegisterField := hfit.register
      have hvalue : address ≤ maxAddressField := hfit.address
      simp [encode, hresolve, Word.instruction, hregister, hvalue, Except.map, Except.mapError]
    · have hregister : ¬register ≤ maxRegisterField := Nat.not_le.mpr hlarge
      simp [encode, hresolve, Word.instruction, hregister, Except.map, Except.mapError]
    · exact (encode_instruction_eq_error_iff hle).mpr (.inr ⟨address, hresolve, hlarge, rfl⟩)

end Context

/-! ### What is stored -/

/-- A word as it is stored. -/
structure Word.Stored where
  operation : UInt8
  register : UInt8
  address : UInt16
  deriving DecidableEq, Repr

/-- Numbers as they are stored: what is above the width of a field is cut off. -/
def Word.Parts.store (parts : Word.Parts) : Word.Stored :=
  ⟨.ofNat parts.operation, .ofNat parts.register, .ofNat parts.address⟩

/-- The numbers that are stored. -/
def Word.Stored.parts (stored : Word.Stored) : Word.Parts :=
  ⟨stored.operation.toNat, stored.register.toNat, stored.address.toNat⟩

/-- The row that is printed of what is stored. -/
def Word.Stored.text (stored : Word.Stored) : String :=
  "+ " ++ Text.padded 2 stored.operation.toNat ++ " " ++ Text.padded 1 stored.register.toNat ++
    " " ++ Text.padded 3 stored.address.toNat

/-- Nothing is lost of the numbers in a word when they are stored. -/
theorem Word.parts_store (word : Word) : word.parts.store.parts = word.parts := by
  have hregister : word.register ≤ 9 := word.register_le
  have haddress : word.address ≤ 999 := word.address_le
  have hoperation := word.operation_lt
  simp only [parts, Parts.store, Stored.parts, UInt8.toNat_ofNat', UInt16.toNat_ofNat',
    Parts.mk.injEq]
  omega

private theorem Word.text_store (word : Word) : word.parts.store.text = word.text := by
  have hparts := word.parts_store
  simp only [parts, Parts.store, Stored.parts, Parts.mk.injEq] at hparts
  obtain ⟨hoperation, hregister, haddress⟩ := hparts
  rw [Stored.text, parts, Parts.store, hoperation, hregister, haddress, text]

/-! ### What is printed -/

/-- The ten characters of a row: a sign, two digits of the operation, one of the register and three
of the address, with blanks between them. -/
inductive Word.IsRow (word : Word) : List Char → Prop
  | digits {a b c d e f : Char} (hoperation : Text.Decimal [a, b] word.operation)
      (hregister : Text.Decimal [c] word.register)
      (haddress : Text.Decimal [d, e, f] word.address) :
      IsRow word ['+', ' ', a, b, ' ', c, ' ', d, e, f]

namespace Word

variable {word : Word} {words others : List Word}

theorem isRow_text (word : Word) : word.IsRow word.text.toList := by
  have hoperation : (Nat.toDigits 10 word.operation).length ≤ 2 :=
    (Nat.length_toDigits_le_iff (by decide) (by decide)).mpr word.operation_lt
  have hregister : (Nat.toDigits 10 word.register).length ≤ 1 :=
    (Nat.length_toDigits_le_iff (by decide) (by decide)).mpr (Nat.lt_succ_of_le word.register_le)
  have haddress : (Nat.toDigits 10 word.address).length ≤ 3 :=
    (Nat.length_toDigits_le_iff (by decide) (by decide)).mpr (Nat.lt_succ_of_le word.address_le)
  obtain ⟨a, b, hab⟩ := List.length_eq_two.mp (Text.length_padded hoperation)
  obtain ⟨c, hc⟩ := List.length_eq_one_iff.mp (Text.length_padded hregister)
  obtain ⟨d, e, f, hdef⟩ := List.length_eq_three.mp (Text.length_padded haddress)
  have htext : word.text.toList = ['+', ' ', a, b, ' ', c, ' ', d, e, f] := by
    simp [text, hab, hc, hdef]
  rw [htext]
  refine .digits ?_ ?_ ?_
  · exact hab ▸ Text.decimal_padded 2 word.operation
  · exact hc ▸ Text.decimal_padded 1 word.register
  · exact hdef ▸ Text.decimal_padded 3 word.address

theorem IsRow.length {row : List Char} (h : word.IsRow row) : row.length = 10 := by
  cases h
  rfl

/-- The characters of a row are of the ASCII range. -/
private theorem toNat_lt_of_mem_text {c : Char} (h : c ∈ word.text.toList) : c.toNat < 128 := by
  rcases mem_text h with rfl | rfl | hdigit
  · decide
  · decide
  · have hrange := Text.toNat_of_isDigit hdigit
    omega

/-- Machine code: the rows of words, one a line. -/
def listing (words : List Word) : String :=
  Text.ofLines (words.map text)

/-- The cells in the row of a word. -/
def cells (word : Word) : List String :=
  ["+", Text.padded 2 word.operation, Text.padded 1 word.register, Text.padded 3 word.address]

/-- The numbers in a row. -/
def Parts.ofCells? : List String → Option Parts
  | ["+", operation, register, address] => do
    return ⟨← Text.number? operation.toList, ← Text.number? register.toList,
      ← Text.number? address.toList⟩
  | _ => none

/-- The numbers in the rows of machine code. -/
def Parts.ofListing? (listing : String) : Option (List Parts) :=
  (Text.cells listing).mapM ofCells?

theorem Parts.ofCells?_cells (word : Word) : ofCells? word.cells = some word.parts := by
  simp [cells, ofCells?, parts]

private theorem cells_listing (words : List Word) :
    Text.cells (listing words) = words.map cells := by
  have hlisting : listing words = Text.ofCells (words.map cells) := by
    rw [listing, Text.ofCells, List.map_map]
    rfl
  have hsign : Text.IsCell "+" := by
    intro c hc
    obtain rfl : c = '+' := by simpa using hc
    decide
  have hdigits : ∀ width n, Text.IsCell (Text.padded width n) := fun _ _ c hc =>
    Text.isSeparator_of_isDigit (Text.isDigit_of_mem_padded hc)
  rw [hlisting]
  refine Text.cells_ofCells (List.forall_mem_map.mpr fun word _ => ?_)
  refine ⟨List.cons_ne_nil _ _, ?_⟩
  simp only [cells, List.forall_mem_cons]
  exact ⟨hsign, hdigits 2 _, hdigits 1 _, hdigits 3 _, fun _ hmem => by cases hmem⟩

/-- The numbers in words are recovered from their machine code. -/
theorem Parts.ofListing?_listing (words : List Word) :
    ofListing? (listing words) = some (words.map Word.parts) := by
  rw [ofListing?, cells_listing, Text.mapM_eq_some_iff, List.forall₂_map_left_iff,
    List.forall₂_map_right_iff]
  exact List.forall₂_same.mpr fun word _ => ofCells?_cells word

/-- Words with the same machine code are the same. -/
private theorem eq_of_listing_eq (h : listing words = listing others) : words = others := by
  have hwords := Parts.ofListing?_listing words
  rw [h, Parts.ofListing?_listing] at hwords
  exact (List.map_injective_iff.mpr fun _ _ => eq_of_parts_eq) (Option.some.inj hwords).symm

end Word

/-! ### Images -/

/-- The machine code of an image. -/
def Image.machineCode (image : Image) : String :=
  Word.listing (image.words.map Located.content)

namespace Context

/-- Each word stands where its record does and holds what the record calls for. -/
private theorem calls_of_wordOf? {context : Context} {record : Located Record} {word : Located Word}
    (h : context.wordOf? record = some word) :
    word.line = record.line ∧ word.address = record.address ∧
      record.content.Calls context word.content.parts := by
  obtain ⟨hline, haddress, hencode⟩ := eq_of_wordOf? h
  exact ⟨hline, haddress, calls_of_encode hencode⟩

/-- The words of an image are those that its records call for, in order. -/
private theorem forall₂_words (context : Context) (records : List (Located Record)) :
    List.Forall₂ (fun record word => word.line = record.line ∧ word.address = record.address ∧
        record.content.Calls context word.content.parts)
      (records.filter fun record => (context.wordOf? record).isSome)
      (context.image records).words := by
  rw [image_words]
  induction records with
  | nil => exact .nil
  | cons record rest ih =>
    cases hword : context.wordOf? record with
    | none =>
      rw [List.filter_cons_of_neg (by simp [hword]), List.filterMap_cons_none hword]
      exact ih
    | some word =>
      rw [List.filter_cons_of_pos (by simp [hword]), List.filterMap_cons_some hword]
      exact .cons (calls_of_wordOf? hword) ih

private theorem isSome_wordOf?_iff {context : Context} {record : Located Record} :
    (context.wordOf? record).isSome = true ↔
      ∃ word, context.encode record.content = .ok (some word) := by
  rw [wordOf?]
  split
  · rename_i word hencode
    simp [hencode]
  · rename_i hnone
    simpa using hnone

/-- An image of records whose machine code says all that the records called for. -/
structure Readable (context : Context) (records : List (Located Record)) : Prop where
  /-- Every word is printed in ten characters of the ASCII range. -/
  row : ∀ word ∈ (context.image records).words, word.content.IsRow word.content.text.toList ∧
    word.content.text.toList.length = 10 ∧ ∀ c ∈ word.content.text.toList, c.toNat < 128
  rows : (context.image records).machineCode.toList =
    ((context.image records).words.map fun word => word.content.text.toList ++ ['\n']).flatten
  /-- Each word holds what its record called for. -/
  sources : List.Forall₂ (fun record word => word.line = record.line ∧
      word.address = record.address ∧ record.content.Calls context word.content.parts)
    (records.filter fun record => (context.wordOf? record).isSome) (context.image records).words
  decoded : Word.Parts.ofListing? (context.image records).machineCode =
    some ((context.image records).words.map fun word => word.content.parts)
  /-- Storing a word changes no number and no character of it. -/
  stored : ∀ word ∈ (context.image records).words,
    word.content.parts.store.parts = word.content.parts ∧
      word.content.parts.store.text = word.content.text
  determined : ∀ words others : List Word, Word.listing words = Word.listing others →
    words = others
  /-- A record gives a word if what it calls for fits. -/
  yields : ∀ record ∈ records, ∀ parts, record.content.Calls context parts →
    ((context.wordOf? record).isSome = true ↔ parts.Fit)
  /-- Else its error is about the register if that is too large, whatever the value is. -/
  refused : ∀ record ∈ records, ∀ parts, record.content.Calls context parts →
    (maxRegisterField < parts.register →
      context.encode record.content = .error (.overflow ⟨.register, parts.register⟩)) ∧
    (parts.register ≤ maxRegisterField → maxAddressField < parts.address →
      context.encode record.content =
        .error (.overflow ⟨record.content.valueField, parts.address⟩))
  /-- An error is reported on the line of its record. -/
  reported : ∀ record ∈ records, ∀ fault, context.encode record.content = .error fault →
    ⟨record.line, .error, fault⟩ ∈ (context.image records).diagnostics
  /-- The rows are the machine code of every program with these words. -/
  code : ∀ assembly : Assembly, assembly.words = (context.image records).words →
    assembly.machineCode = (context.image records).machineCode

/-- Every image is readable. -/
theorem readable_image (context : Context) (records : List (Located Record)) :
    context.Readable records where
  row word _ := ⟨word.content.isRow_text, word.content.isRow_text.length, fun _ =>
    Word.toNat_lt_of_mem_text⟩
  rows := by
    simp [Image.machineCode, Word.listing, Text.ofLines, Function.comp_def, List.flatMap_def]
  sources := context.forall₂_words records
  decoded := by
    rw [Image.machineCode, Word.Parts.ofListing?_listing, List.map_map]
    rfl
  stored word _ := ⟨word.content.parts_store, word.content.text_store⟩
  determined _ _ := Word.eq_of_listing_eq
  yields _ _ _ hcalls := isSome_wordOf?_iff.trans (encode_of_calls hcalls).1
  refused _ _ _ hcalls := (encode_of_calls hcalls).2
  reported _ hmem _ := mem_diagnostics_of_encode_eq_error hmem
  code assembly hwords := by
    rw [Assembly.machineCode, hwords, Image.machineCode, Word.listing, List.map_map]
    rfl

end Context

example : Word.Parts.ofListing? "+ 04 1 201\n+ 00 0 007\n" = some [⟨4, 1, 201⟩, ⟨0, 0, 7⟩] := by
  decide +kernel

end Assembler
