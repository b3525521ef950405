import Assembler.Assembly.Program
import Assembler.Proofs.Table.Literal
import Assembler.Proofs.Table.Symbol
import Mathlib.Algebra.GroupWithZero.Nat

/-!
# The image of a program

Every record is encoded by itself, so what the encoding says on a line is what it says of the
record of that line.  A record that stands for a word gives the word or exactly one error.

An operand that refers to a row of a table stands for the address that the row has in the end.

## Main definitions

* `Image.append`, `Image.onLine` : images of parts of a program.

## Main results

* `Context.image_onLine` : the image on the line of a record is the image of that record.
* `Context.length_image` : words and errors together are as many as the records stand for.
* `Context.resolve_symbol`, `Context.resolve_literal` : what references stand for.
-/

namespace Assembler

namespace Image

/-- The image of records, followed by that of later records. -/
def append (earlier later : Image) : Image :=
  ⟨earlier.words ++ later.words, earlier.diagnostics ++ later.diagnostics⟩

/-- What an image holds of one line. -/
def onLine (image : Image) (line : Nat) : Image :=
  ⟨image.words.filter (·.line == line), image.diagnostics.filter (·.line == line)⟩

private theorem onLine_append (earlier later : Image) (line : Nat) :
    (earlier.append later).onLine line = (earlier.onLine line).append (later.onLine line) := by
  simp only [append, onLine, List.filter_append]

private theorem append_empty (image : Image) : image.append {} = image := by
  simp only [append, List.append_nil]

end Image

namespace Context

variable {context : Context} {records : List (Located Record)} {record : Located Record}

/-! ### Records one by one -/

/-- The image of a record is a word, an error, or nothing at all. -/
theorem image_singleton (context : Context) (record : Located Record) :
    context.image [record] =
      match context.encode record.content with
      | .ok (some word) => ⟨[⟨record.line, record.address, word⟩], []⟩
      | .ok none => {}
      | .error fault => ⟨[], [⟨record.line, .error, fault⟩]⟩ := by
  cases hencode : context.encode record.content with
  | error fault => simp only [image, hencode]
  | ok word? => cases word? <;> simp only [image, hencode]

theorem image_cons (context : Context) (record : Located Record)
    (rest : List (Located Record)) :
    context.image (record :: rest) = (context.image [record]).append (context.image rest) := by
  rw [image, image_singleton]
  rcases context.encode record.content with fault | _ | word <;> rfl

private theorem image_onLine_self (context : Context) (record : Located Record) :
    (context.image [record]).onLine record.line = context.image [record] := by
  rw [image_singleton]
  split <;> simp [Image.onLine]

private theorem image_onLine_of_ne {line : Nat} (h : ∀ record ∈ records, record.line ≠ line) :
    (context.image records).onLine line = {} := by
  induction records with
  | nil => rfl
  | cons record rest ih =>
    have hne : record.line ≠ line := h record List.mem_cons_self
    have hhead : (context.image [record]).onLine line = {} := by
      rw [image_singleton]
      split <;> simp [Image.onLine, hne]
    have htail := ih fun other hother => h other (List.mem_cons_of_mem _ hother)
    rw [image_cons, Image.onLine_append, hhead, htail]
    rfl

/-- The image on the line of a record is the image of that record. -/
theorem image_onLine (hlines : records.Pairwise fun earlier later => earlier.line < later.line)
    (hmem : record ∈ records) :
    (context.image records).onLine record.line = context.image [record] := by
  induction records with
  | nil => exact absurd hmem List.not_mem_nil
  | cons first rest ih =>
    obtain ⟨hfirst, hrest⟩ := List.pairwise_cons.mp hlines
    rw [image_cons, Image.onLine_append]
    rcases List.mem_cons.mp hmem with rfl | htail
    · have hothers : (context.image rest).onLine record.line = {} :=
        image_onLine_of_ne fun other hother => Nat.ne_of_gt (hfirst other hother)
      rw [image_onLine_self, hothers, Image.append_empty]
    · have hhead : (context.image [first]).onLine record.line = {} := by
        apply image_onLine_of_ne
        intro other hother
        rw [List.mem_singleton.mp hother]
        exact Nat.ne_of_lt (hfirst record htail)
      rw [hhead, ih hrest htail]
      rfl

/-- An error of the encoding is noted on the line of its record. -/
theorem mem_diagnostics_of_encode_eq_error {fault : Fault} (hmem : record ∈ records)
    (hencode : context.encode record.content = .error fault) :
    ⟨record.line, .error, fault⟩ ∈ (context.image records).diagnostics := by
  induction records with
  | nil => exact absurd hmem List.not_mem_nil
  | cons first rest ih =>
    rw [image_cons]
    apply List.mem_append.mpr
    rcases List.mem_cons.mp hmem with rfl | htail
    · refine .inl ?_
      rw [image_singleton, hencode]
      exact List.mem_singleton_self _
    · exact .inr (ih htail)

/-- What the encoding notes is the error of some record, on the line of that record. -/
theorem exists_record_of_mem_diagnostics {diagnostic : Diagnostic}
    (h : diagnostic ∈ (context.image records).diagnostics) :
    ∃ record ∈ records, diagnostic.line = record.line ∧
      context.encode record.content = .error diagnostic.fault := by
  induction records with
  | nil => exact absurd h List.not_mem_nil
  | cons first rest ih =>
    rw [image_cons] at h
    rcases List.mem_append.mp h with hfirst | hrest
    · rw [image_singleton] at hfirst
      split at hfirst
      · exact absurd hfirst List.not_mem_nil
      · exact absurd hfirst List.not_mem_nil
      · rename_i hencode
        rw [List.mem_singleton.mp hfirst]
        exact ⟨first, List.mem_cons_self, rfl, hencode⟩
    · obtain ⟨record, hmem, hrecord⟩ := ih hrest
      exact ⟨record, List.mem_cons_of_mem _ hmem, hrecord⟩

/-! ### Words and errors -/

/-- The word of a record, where encoding gives one. -/
def wordOf? (context : Context) (record : Located Record) : Option (Located Word) :=
  match context.encode record.content with
  | .ok (some word) => some ⟨record.line, record.address, word⟩
  | _ => none

/-- The words of records are those that encoding gives. -/
theorem image_words (context : Context) (records : List (Located Record)) :
    (context.image records).words = records.filterMap context.wordOf? := by
  induction records with
  | nil => rfl
  | cons record rest ih =>
    rw [image_cons, Image.append, ih, List.filterMap_cons, image_singleton, wordOf?]
    rcases context.encode record.content with fault | _ | word <;> rfl

/-- A word stands where its record does. -/
theorem eq_of_wordOf? {word : Located Word} (h : context.wordOf? record = some word) :
    word.line = record.line ∧ word.address = record.address ∧
      context.encode record.content = .ok (some word.content) := by
  unfold wordOf? at h
  split at h
  · rename_i hencode
    rw [← Option.some.inj h]
    exact ⟨rfl, rfl, hencode⟩
  · exact absurd h (by simp)

/-- Encoding gives a word only for a record that stands for one. -/
theorem wordCount_of_encode {record : Record} :
    (∀ word, context.encode record = .ok (some word) → record.wordCount = 1) ∧
      (context.encode record = .ok none → record.wordCount = 0) ∧
      ∀ fault, context.encode record = .error fault → record.wordCount = 1 := by
  cases record with
  | directive word operand => simp [encode, Record.wordCount]
  | declaration word value =>
    cases word with
    | storage => simp [encode, Record.wordCount]
    | constant =>
      refine ⟨fun _ _ => rfl, ?_, fun _ _ => rfl⟩
      rw [encode]
      cases Word.constant value <;> simp [Except.map, Except.mapError]
  | instruction opcode register operand =>
    refine ⟨fun _ _ => rfl, ?_, fun _ _ => rfl⟩
    rw [encode]
    cases context.resolve operand with
    | error fault => simp
    | ok address =>
      dsimp only
      cases Word.instruction opcode register address <;> simp [Except.map, Except.mapError]

/-- A record gives as many words and errors as the words that it stands for. -/
theorem length_image_singleton (context : Context) (record : Located Record) :
    (context.image [record]).words.length + (context.image [record]).diagnostics.length =
      record.content.wordCount := by
  obtain ⟨hword, hnone, herror⟩ := @wordCount_of_encode context record.content
  rw [image_singleton]
  cases hencode : context.encode record.content with
  | error fault => rw [herror fault hencode]; rfl
  | ok word? =>
    cases word? with
    | none => rw [hnone hencode]; rfl
    | some word => rw [hword word hencode]; rfl

/-- Words and errors together are as many as the words that the records stand for. -/
theorem length_image (context : Context) (records : List (Located Record)) :
    (context.image records).words.length + (context.image records).diagnostics.length =
      (records.map fun record => record.content.wordCount).sum := by
  induction records with
  | nil => rfl
  | cons record rest ih =>
    rw [image_cons, Image.append, List.length_append, List.length_append, List.map_cons,
      List.sum_cons, ← ih, ← length_image_singleton context record]
    omega

/-! ### References -/

/-- A symbol stands for its address. -/
theorem resolve_symbol {name : String} (hmem : name ∈ context.symbols.names) :
    context.resolve (.symbol (context.symbols.index name)) =
      match context.symbols.addressOf? name with
      | some address => .ok address
      | none => .error (.undefinedSymbol name) := by
  obtain ⟨symbol, hsymbol⟩ :=
    Option.isSome_iff_exists.mp (SymbolTable.find?_isSome_iff.mpr hmem)
  rw [resolve, SymbolTable.get?_index, SymbolTable.addressOf?, hsymbol,
    ← SymbolTable.name_of_find? hsymbol, Option.bind_some]
  dsimp only
  cases symbol.address <;> rfl

/-- A literal stands for its address. -/
theorem resolve_literal {text : String} (hmem : text ∈ context.literals.texts) :
    context.resolve (.literal (context.literals.index text)) =
      match context.literals.addressOf? text with
      | some address => .ok address
      | none => .error (.unplacedLiteral text) := by
  obtain ⟨literal, hliteral⟩ :=
    Option.isSome_iff_exists.mp (LiteralTable.find?_isSome_iff.mpr hmem)
  rw [resolve, LiteralTable.get?_index, LiteralTable.addressOf?, hliteral,
    ← LiteralTable.text_of_find? hliteral, Option.bind_some]
  dsimp only
  cases literal.address <;> rfl

end Context

/-- The words of a program are those of its records. -/
theorem words_assemble (text : String) :
    (assemble text).words = (assemble text).records.filterMap (assemble text).context.wordOf? :=
  Context.image_words _ _

end Assembler
