import Assembler.Dump.Basic
import Assembler.Proofs.Assembly.Event
import Assembler.Proofs.Assembly.Image

/-!
# What a debug dump says of its program

A dump pairs records with words by looking one word ahead: a record takes the next word if that word
stands on its line.  The words have gaps wherever the encoding reported an error, so this would go
wrong for good if two records ever shared a line, or if lines did not increase.  They always
increase, and so every record gets the word that it was encoded to, if there is one.

What the dump answers about addresses and names can then be read off the words and the symbol
table.

## Main definitions

* `Context.dumpLine` : the line of a record in a dump.
* `Dump.Line.carried?`, `Located.printed` : words as a dump has them.
* `Dump.Faithful` : a dump that says what the assembler found out.

## Main results

* `pairWords_filterMap` : records are paired with their own words.
* `faithful_dump` : the dump of every program is faithful.
-/

namespace Assembler

/-! ### Pairing -/

/-- A record takes no word of another line. -/
private theorem pairWords_cons_of_ne {record : Located Record} (records : List (Located Record))
    {words : List (Located Word)} (h : ∀ word ∈ words, word.line ≠ record.line) :
    pairWords (record :: records) words = (record, none) :: pairWords records words := by
  cases words with
  | nil => rfl
  | cons word rest => exact if_neg (h word List.mem_cons_self)

/-- Where lines increase, every record is paired with the word that it gave. -/
theorem pairWords_filterMap {wordOf? : Located Record → Option (Located Word)}
    (hwords : ∀ record word, wordOf? record = some word → word.line = record.line)
    {records : List (Located Record)}
    (hlines : records.Pairwise fun earlier later => earlier.line < later.line) :
    pairWords records (records.filterMap wordOf?) =
      records.map fun record => (record, (wordOf? record).map Located.content) := by
  induction records with
  | nil => rfl
  | cons record rest ih =>
    obtain ⟨hfirst, hrest⟩ := List.pairwise_cons.mp hlines
    have htail := ih hrest
    rw [List.map_cons]
    cases hword : wordOf? record with
    | none =>
      -- the next word belongs to a later line
      have hlater : ∀ word ∈ rest.filterMap wordOf?, word.line ≠ record.line := by
        intro word hmem
        obtain ⟨other, hother, hotherWord⟩ := List.mem_filterMap.mp hmem
        rw [hwords other word hotherWord]
        exact Nat.ne_of_gt (hfirst other hother)
      rw [List.filterMap_cons_none hword, pairWords_cons_of_ne rest hlater, htail]
      rfl
    | some word =>
      rw [List.filterMap_cons_some hword, pairWords, if_pos (hwords record word hword), htail]
      rfl

/-! ### Lines and words -/

/-- The line of a record in a dump, with the word that the record is encoded to. -/
def Context.dumpLine (context : Context) (record : Located Record) : Dump.Line :=
  ⟨record.line, record.address, record.content.text,
    (context.wordOf? record).map fun word => word.content.text⟩

/-- The text of the word that a line of a dump carries. -/
def Dump.Line.carried? (line : Dump.Line) : Option (Located String) :=
  line.word.map (Located.mk line.line line.address)

/-- A word in the form in which a dump has it. -/
def Located.printed (word : Located Word) : Located String :=
  ⟨word.line, word.address, word.content.text⟩

private theorem Context.carried?_dumpLine (context : Context) (record : Located Record) :
    (context.dumpLine record).carried? = (context.wordOf? record).map Located.printed := by
  rw [dumpLine, Dump.Line.carried?]
  cases hword : context.wordOf? record with
  | none => rfl
  | some word =>
    obtain ⟨hline, haddress, -⟩ := eq_of_wordOf? hword
    simp only [Option.map_some, Located.printed, hline, haddress]

/-- The first line that carries a word at an address carries the first such word. -/
private theorem carried?_find? (lines : List Dump.Line) (address : Nat) :
    (lines.find? fun line => line.address == address && line.word.isSome).bind
        Dump.Line.carried? =
      (lines.filterMap Dump.Line.carried?).find? (·.address == address) := by
  rw [List.find?_filterMap]
  have hsame : (fun line : Dump.Line => line.address == address && line.word.isSome) =
      fun line => line.carried?.any (·.address == address) := by
    funext line
    rw [Dump.Line.carried?]
    cases line.word with
    | none => exact Bool.and_false _
    | some word => exact Bool.and_true _
  rw [hsame]

/-! ### Symbols -/

/-- Looking something up in a list with positions gives its position too. -/
private theorem find?_zipIdx {α : Type} (wanted : α → Bool) (items : List α) (first : Nat) :
    (items.zipIdx first).find? (fun pair => wanted pair.1) =
      (items.find? wanted).map fun item => (item, first + items.findIdx wanted) := by
  induction items generalizing first with
  | nil => rfl
  | cons item rest ih =>
    rw [List.zipIdx_cons, List.find?_cons, List.find?_cons, List.findIdx_cons]
    cases hitem : wanted item with
    | true => rfl
    | false =>
      dsimp only
      rw [ih]
      simp only [cond_false, Nat.add_assoc, Nat.add_comm 1]

/-- The symbol that a dump has under a name is that of the symbol table, at its index. -/
theorem Assembly.symbol?_dump (assembly : Assembly) (title name : String) :
    (assembly.dump title).symbol? name = (assembly.context.symbols.find? name).map fun symbol =>
      ⟨assembly.context.symbols.index name, symbol.name, symbol.address, symbol.length⟩ := by
  have hindex : assembly.context.symbols.index name =
      1 + assembly.context.symbols.symbols.findIdx (·.name == name) := by
    rw [SymbolTable.index, SymbolTable.names, List.idxOf, List.findIdx_map, Nat.add_comm]
    rfl
  rw [hindex, SymbolTable.find?]
  have hfind := find?_zipIdx (·.name == name) assembly.context.symbols.symbols 1
  rw [Dump.symbol?, dump]
  dsimp only [SymbolTable.indexed]
  rw [List.map_map, List.find?_map]
  change Option.map _ ((assembly.context.symbols.symbols.zipIdx 1).find? fun pair =>
    pair.1.name == name) = _
  rw [hfind, Option.map_map]
  rfl

/-! ### Whole dumps -/

/-- A dump that says of an assembled program what the assembler found out. -/
structure Dump.Faithful (assembly : Assembly) (dump : Dump) : Prop where
  /-- The lines are those of the records in their order, each with the word of its own record. -/
  lines : dump.lines = assembly.records.map assembly.context.dumpLine
  encoded : assembly.words = assembly.records.filterMap assembly.context.wordOf?
  /-- No word is lost, and none is there twice or on another line. -/
  words : dump.lines.filterMap Dump.Line.carried? = assembly.words.map Located.printed
  /-- There is a line at an address exactly if there is a word, and it carries the first one. -/
  lineAt? : ∀ address,
    (dump.lineAt? address).map (fun line => (line.line, line.address, line.word)) =
      (assembly.words.find? (·.address == address)).map fun word =>
        (word.line, word.address, some word.content.text)
  symbol? : ∀ name,
    dump.symbol? name = (assembly.context.symbols.find? name).map fun symbol =>
      ⟨assembly.context.symbols.index name, symbol.name, symbol.address, symbol.length⟩

/-- The lines of a dump are those of the records. -/
theorem lines_dump (text name : String) :
    ((assemble text).dump name).lines =
      (assemble text).records.map (assemble text).context.dumpLine := by
  have hlines : ∀ record word, (assemble text).context.wordOf? record = some word →
      word.line = record.line := fun _ _ hword => (Context.eq_of_wordOf? hword).1
  rw [Assembly.dump]
  dsimp only
  rw [words_assemble, pairWords_filterMap hlines (records_assemble_pairwise text), List.map_map]
  apply List.map_congr_left
  intro record _
  simp only [Function.comp_apply, Context.dumpLine, Option.map_map]
  rfl

/-- The words that the lines of a dump carry are the words of the program. -/
theorem carried_dump (text name : String) :
    ((assemble text).dump name).lines.filterMap Dump.Line.carried? =
      (assemble text).words.map Located.printed := by
  rw [lines_dump, words_assemble, List.filterMap_map, List.map_filterMap]
  apply List.filterMap_congr
  intro record _
  exact Context.carried?_dumpLine _ record

/-- What a line that is found says is what the word that it carries says. -/
theorem lineAt?_dump (text name : String) (address : Nat) :
    (((assemble text).dump name).lineAt? address).map
        (fun line => (line.line, line.address, line.word)) =
      ((assemble text).words.find? (·.address == address)).map fun word =>
        (word.line, word.address, some word.content.text) := by
  have hfind := carried?_find? ((assemble text).dump name).lines address
  rw [carried_dump, List.find?_map] at hfind
  have hcarried : ∀ line : Dump.Line, line.word.isSome →
      some (line.line, line.address, line.word) =
        line.carried?.map fun word => (word.line, word.address, some word.content) := by
    intro line hsome
    obtain ⟨word, hword⟩ := Option.isSome_iff_exists.mp hsome
    rw [Dump.Line.carried?, hword]
    rfl
  have hprinted := congrArg
    (Option.map fun word : Located String => (word.line, word.address, some word.content)) hfind
  rw [Option.map_map] at hprinted
  refine Eq.trans ?_ hprinted
  rw [Dump.lineAt?]
  cases hline : ((assemble text).dump name).lines.find? fun line =>
      line.address == address && line.word.isSome with
  | none => rfl
  | some line =>
    have hsome := List.find?_some hline
    rw [Bool.and_eq_true] at hsome
    exact hcarried line hsome.2

/-- The dump of every program is faithful. -/
theorem faithful_dump (text name : String) :
    Dump.Faithful (assemble text) ((assemble text).dump name) where
  lines := lines_dump text name
  encoded := words_assemble text
  words := carried_dump text name
  lineAt? := lineAt?_dump text name
  symbol? := Assembly.symbol?_dump (assemble text) name

/-- The second line gives an error and no word, and the word of the third stays with its line. -/
example : ((assemble " START 5\n READ X\n STOP\n END").dump "P").lineAt? 6 =
    some ⟨3, 6, "(IS,00)", some "+ 00 0 000"⟩ := by
  decide +kernel

end Assembler
