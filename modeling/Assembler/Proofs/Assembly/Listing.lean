import Assembler.Assembly.Program
import Assembler.Proofs.Text.Decimal
import Assembler.Proofs.Text.Row

/-!
# Intermediate code that is read back

A record is printed as groups of fields: its class and code, then the register of an instruction,
then its operand.  Which groups are there depends on the record, and an instruction without a
register and an operand shows neither.  The groups that are there still tell which are missing: a
register is a group of one field and an operand one of two, and a register alone belongs to an
instruction without an operand.  So a listing has only one list of records that it can come from,
and they can be computed from it.

## Main definitions

* `Record.groups` : the fields that are printed of a record.
* `Record.listing` : the printed forms of records.
* `Record.ofGroups?`, `Record.ofListing?` : the record with some fields, and the records of a
  listing.
* `Record.Listed` : records that are recovered from their listing.

## Main results

* `Record.ofGroups?_groups` : a record is recovered from its fields.
* `Record.listed_of_records` : any records are recovered from their listing.
-/

namespace Assembler

/-! ### What is printed -/

/-- The class and the code of a mnemonic. -/
def Mnemonic.group (mnemonic : Mnemonic) : List String :=
  [mnemonic.classMark, Text.padded 2 mnemonic.code]

/-- The fields of an operand, where there is one. -/
def Reference.groups : Reference → List (List String)
  | symbol index => [["S", index.repr]]
  | literal index => [["L", index.repr]]
  | constant value => [["C", value.repr]]
  | none => []

namespace Record

/-- The fields of a record. -/
def groups : Record → List (List String)
  | directive word operand =>
    (Mnemonic.directive word).group :: ((operand.map Reference.constant).getD .none).groups
  | declaration word operand =>
    (Mnemonic.declaration word).group :: (Reference.constant operand).groups
  | instruction opcode register operand =>
    (Mnemonic.operation opcode).group ::
      if register = 0 ∧ operand = .none then [] else [register.repr] :: operand.groups

end Record

/-- Letters, digits and underscores make up a field. -/
theorem Text.isField_of_continuesName {field : String}
    (h : ∀ c ∈ field.toList, continuesName c = true) : IsField field := by
  intro c hc hspecial
  have hname := h c hc
  simp only [List.mem_cons, List.not_mem_nil, or_false] at hspecial
  rcases hspecial with rfl | rfl | rfl | rfl | rfl <;> exact absurd hname (by decide)

private theorem Text.isField_of_isName {field : String} (h : isName field.toList = true) :
    IsField field :=
  isField_of_continuesName (continuesName_of_isName h)

private theorem Text.isField_of_isDigit {field : String}
    (h : ∀ c ∈ field.toList, c.isDigit = true) : IsField field :=
  isField_of_continuesName fun c hc => by rw [continuesName, h c hc, Bool.or_true]

private theorem Text.isField_repr (n : Nat) : IsField n.repr :=
  isField_of_isDigit fun c hc => ((repr_word n).2 c hc).1

private theorem Text.isField_padded (width n : Nat) : IsField (padded width n) :=
  isField_of_isDigit (decimal_padded width n).isDigit

private theorem Mnemonic.isField_of_mem_group {mnemonic : Mnemonic} {field : String}
    (h : field ∈ mnemonic.group) : Text.IsField field := by
  rcases List.mem_cons.mp h with rfl | hcode
  · cases mnemonic <;> simp only [Mnemonic.classMark] <;> exact Text.isField_of_isName rfl
  · rw [List.mem_singleton.mp hcode]
    exact Text.isField_padded 2 _

private theorem Reference.isField_of_mem_groups {reference : Reference} {group : List String}
    (h : group ∈ reference.groups) : group ≠ [] ∧ ∀ field ∈ group, Text.IsField field := by
  have hmarked : ∀ {mark : String} {n : Nat}, Text.IsField mark → group ∈ [[mark, n.repr]] →
      group ≠ [] ∧ ∀ field ∈ group, Text.IsField field := by
    intro mark n hmark hgroup
    rw [List.mem_singleton.mp hgroup]
    refine ⟨List.cons_ne_nil _ _, fun field hfield => ?_⟩
    rcases List.mem_cons.mp hfield with rfl | hnumber
    · exact hmark
    · rw [List.mem_singleton.mp hnumber]
      exact Text.isField_repr n
  cases reference with
  | symbol index => exact hmarked (Text.isField_of_isName rfl) h
  | literal index => exact hmarked (Text.isField_of_isName rfl) h
  | constant value => exact hmarked (Text.isField_of_isName rfl) h
  | none => cases h

private theorem Record.isField_of_mem_groups {record : Record} {group : List String}
    (h : group ∈ record.groups) : group ≠ [] ∧ ∀ field ∈ group, Text.IsField field := by
  have hhead : ∀ mnemonic : Mnemonic,
      mnemonic.group ≠ [] ∧ ∀ field ∈ mnemonic.group, Text.IsField field := fun _ =>
    ⟨List.cons_ne_nil _ _, fun _ => Mnemonic.isField_of_mem_group⟩
  cases record with
  | directive word operand =>
    rcases List.mem_cons.mp h with rfl | hoperand
    · exact hhead _
    · exact Reference.isField_of_mem_groups hoperand
  | declaration word operand =>
    rcases List.mem_cons.mp h with rfl | hoperand
    · exact hhead _
    · exact Reference.isField_of_mem_groups hoperand
  | instruction opcode register operand =>
    rcases List.mem_cons.mp h with rfl | hrest
    · exact hhead _
    · split_ifs at hrest
      · cases hrest
      · rcases List.mem_cons.mp hrest with rfl | hoperand
        · refine ⟨List.cons_ne_nil _ _, fun field hfield => ?_⟩
          rw [List.mem_singleton.mp hfield]
          exact Text.isField_repr register
        · exact Reference.isField_of_mem_groups hoperand

private theorem Text.ofGroups_cons (group : List String) (rest : List (List String)) :
    ofGroups (group :: rest) = "(" ++ ",".intercalate group ++ ")" ++ ofGroups rest := by
  apply String.ext
  simp [ofGroups]

theorem Reference.text_eq (reference : Reference) :
    reference.text = Text.ofGroups reference.groups := by
  cases reference <;> rfl

private theorem Record.headText_append (mnemonic : Mnemonic) (rest : List (List String)) :
    headText mnemonic ++ Text.ofGroups rest = Text.ofGroups (mnemonic.group :: rest) := by
  rw [Text.ofGroups_cons]
  rfl

/-- A record is printed as its fields. -/
theorem Record.text_eq (record : Record) : record.text = Text.ofGroups record.groups := by
  cases record with
  | directive word operand => rw [text, groups, Reference.text_eq, headText_append]
  | declaration word operand => rw [text, groups, Reference.text_eq, headText_append]
  | instruction opcode register operand =>
    rw [text, groups, ← headText_append]
    split_ifs
    · rfl
    · rw [Reference.text_eq, Text.ofGroups_cons]
      rfl

/-! ### What is read back -/

/-- The word of a vocabulary that a code in decimal stands for. -/
def Vocabulary.ofCode? {α : Type} [Vocabulary α] (digits : String) : Option α :=
  (Text.number? digits.toList).bind coded?

private theorem Vocabulary.ofCode?_padded {α : Type} [Vocabulary α] {word : α}
    (h : coded? (code word) = some word) (width : Nat) :
    ofCode? (Text.padded width (code word)) = some word := by
  rw [ofCode?, Text.number?_padded, Option.bind_some, h]

/-- The operand with some fields. -/
def Reference.ofGroups? : List (List String) → Option Reference
  | [["S", index]] => (Text.number? index.toList).map symbol
  | [["L", index]] => (Text.number? index.toList).map literal
  | [["C", value]] => (Text.number? value.toList).map constant
  | [] => some none
  | _ => Option.none

theorem Reference.ofGroups?_groups (reference : Reference) :
    ofGroups? reference.groups = some reference := by
  cases reference <;> simp [groups, ofGroups?]

namespace Record

/-- The record with some fields. -/
def ofGroups? : List (List String) → Option Record
  | ["AD", code] :: rest => do
    match ← Reference.ofGroups? rest with
    | .constant value => return directive (← Vocabulary.ofCode? code) (some value)
    | .none => return directive (← Vocabulary.ofCode? code) none
    | _ => none
  | ["DL", code] :: rest => do
    match ← Reference.ofGroups? rest with
    | .constant value => return declaration (← Vocabulary.ofCode? code) value
    | _ => none
  | [["IS", code]] => do
    return instruction (← Vocabulary.ofCode? code) 0 .none
  | ["IS", code] :: [register] :: rest => do
    return instruction (← Vocabulary.ofCode? code) (← Text.number? register.toList)
      (← Reference.ofGroups? rest)
  | _ => none

/-- The listing of records: their printed forms, one a line. -/
def listing (records : List Record) : String :=
  Text.ofLines (records.map text)

/-- The records in the lines of a listing. -/
def ofListing? (listing : String) : Option (List Record) :=
  (Text.lines listing.toList).mapM fun line => ofGroups? (Text.groups (String.ofList line))

/-- A record is recovered from its fields. -/
theorem ofGroups?_groups (record : Record) : ofGroups? record.groups = some record := by
  cases record with
  | directive word operand =>
    have hcode : Vocabulary.ofCode? (Text.padded 2 word.code) = some word :=
      Vocabulary.ofCode?_padded (by cases word <;> rfl) 2
    have hoperand := Reference.ofGroups?_groups ((operand.map Reference.constant).getD .none)
    rw [groups, Mnemonic.group, Mnemonic.classMark, Mnemonic.code, ofGroups?, hoperand]
    cases operand <;> simp [hcode]
  | declaration word value =>
    have hcode : Vocabulary.ofCode? (Text.padded 2 word.code) = some word :=
      Vocabulary.ofCode?_padded (by cases word <;> rfl) 2
    rw [groups, Mnemonic.group, Mnemonic.classMark, Mnemonic.code, ofGroups?,
      Reference.ofGroups?_groups]
    simp [hcode]
  | instruction opcode register operand =>
    have hcode : Vocabulary.ofCode? (Text.padded 2 opcode.code) = some opcode :=
      Vocabulary.ofCode?_padded (by cases opcode <;> rfl) 2
    rw [groups, Mnemonic.group, Mnemonic.classMark, Mnemonic.code]
    split_ifs with hnothing
    · obtain ⟨rfl, rfl⟩ := hnothing
      simp [ofGroups?, hcode]
    · simp [ofGroups?, hcode, Reference.ofGroups?_groups]

/-- Records that are recovered from their listing, and from nothing else than it. -/
structure Listed (records : List Record) : Prop where
  decoded : ofListing? (listing records) = some records
  determined : ∀ others : List Record, listing others = listing records → others = records
  /-- The listing is the intermediate code of every program with these records. -/
  code : ∀ assembly : Assembly, assembly.records.map Located.content = records →
    assembly.intermediateCode = listing records

private theorem groups_text (record : Record) : Text.groups record.text = record.groups := by
  rw [text_eq]
  exact Text.groups_ofGroups fun _ => isField_of_mem_groups

/-- Records are recovered from their listing. -/
theorem ofListing?_listing (records : List Record) :
    ofListing? (listing records) = some records := by
  have hrows : ∀ row ∈ records.map text, '\n' ∉ row.toList ∧ row.toList.getLast? ≠ some '\r' := by
    intro row hrow
    obtain ⟨record, -, rfl⟩ := List.mem_map.mp hrow
    have hfields : ∀ group ∈ record.groups, ∀ field ∈ group, Text.IsField field :=
      fun _ hgroup => (isField_of_mem_groups hgroup).2
    rw [text_eq]
    refine ⟨Text.not_mem_ofGroups hfields (by decide), fun hlast => ?_⟩
    exact Text.not_mem_ofGroups hfields (by decide) (List.mem_of_getLast? hlast)
  rw [ofListing?, listing, Text.lines_ofLines hrows, List.map_map]
  refine Text.mapM_map_eq_some fun record _ => ?_
  rw [Function.comp_apply, String.ofList_toList, groups_text, ofGroups?_groups]

/-- Any records are recovered from their listing. -/
theorem listed_of_records (records : List Record) : Listed records where
  decoded := ofListing?_listing records
  determined others hsame := by
    have hothers := ofListing?_listing others
    rw [hsame, ofListing?_listing] at hothers
    exact (Option.some.inj hothers).symm
  code assembly hrecords := by
    rw [Assembly.intermediateCode, ← hrecords, listing, List.map_map]
    rfl

example : ofListing? "(AD,01)(C,200)\n(IS,04)(1)(L,2)\n(IS,00)\n" =
    some [.directive .start (some 200), .instruction .mover 1 (.literal 2),
      .instruction .stop 0 .none] := by
  decide +kernel

end Record

end Assembler
