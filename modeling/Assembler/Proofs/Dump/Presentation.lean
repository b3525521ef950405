import Assembler.Dump.Reader
import Assembler.Dump.Writer
import Assembler.Proofs.Json.Presentation

/-!
# The presentations of a dump

A dump can be presented by many texts.  The keys of every object may stand in any order and among
foreign keys, an address or a word that is missing may be left out, every record may be given as an
array of the values of its fields, and white space may stand between any two parts of the text.  The
text that is written for a dump is one of them, and all of them are read as the same dump.

## Main definitions

* `Dump.Fits` : the numbers of a dump are in their ranges.
* `Dump.entries`, and those of its rows : the names of the fields and the texts of their values.
* `Dump.Presented` : a text presents a dump.

## Main results

* `Dump.readsEntries`, and the same for the rows : how the fields of a dump are read.
* `Dump.ofText_of_presented` : a dump is read from all its presentations.
-/

namespace Assembler.Dump

open Json

/-! ### Ranges -/

/-- The numbers of a record are in their ranges. -/
structure Line.Fits (row : Line) : Prop where
  line : row.line ≤ Range.count.limit
  address : row.address ≤ Range.address.limit

/-- The numbers of a symbol are in their ranges. -/
structure Symbol.Fits (row : Symbol) : Prop where
  index : row.index ≤ Range.count.limit
  address : ∀ address ∈ row.address, address ≤ Range.address.limit
  length : row.length ≤ Range.address.limit

/-- The numbers of a literal are in their ranges. -/
structure Literal.Fits (row : Literal) : Prop where
  index : row.index ≤ Range.count.limit
  address : ∀ address ∈ row.address, address ≤ Range.address.limit

/-- The numbers of a dump are in their ranges. -/
structure Fits (dump : Dump) : Prop where
  start : dump.start ≤ Range.address.limit
  lines : ∀ row ∈ dump.lines, row.Fits
  symbols : ∀ row ∈ dump.symbols, row.Fits
  literals : ∀ row ∈ dump.literals, row.Fits
  pools : ∀ index ∈ dump.pools, index ≤ Range.count.limit

/-! ### Entries -/

/-- A natural number is presented as it is written. -/
def IsNatural (text : List Char) (n : Nat) : Prop :=
  text = writeNatural n

/-- The fields of a record.  A word that is missing may be left out. -/
def Line.entries (row : Line) : List Entry :=
  [⟨"line_number", (IsNatural · row.line), False⟩,
    ⟨"offset", (IsNatural · row.address), False⟩,
    ⟨"intermediate", (Spells · row.intermediate), False⟩,
    ⟨"word", (PresentsOption Spells · row.word), row.word = none⟩]

/-- The fields of a symbol.  An address that is missing may be left out. -/
def Symbol.entries (row : Symbol) : List Entry :=
  [⟨"index", (IsNatural · row.index), False⟩,
    ⟨"name", (Spells · row.name), False⟩,
    ⟨"address", (PresentsOption IsNatural · row.address), row.address = none⟩,
    ⟨"length", (IsNatural · row.length), False⟩]

/-- The fields of a literal.  An address that is missing may be left out. -/
def Literal.entries (row : Literal) : List Entry :=
  [⟨"index", (IsNatural · row.index), False⟩,
    ⟨"text", (Spells · row.text), False⟩,
    ⟨"address", (PresentsOption IsNatural · row.address), row.address = none⟩]

/-- The fields of a dump, all of which must be there. -/
def entries (dump : Dump) : List Entry :=
  [⟨"name", (Spells · dump.name), False⟩,
    ⟨"start", (IsNatural · dump.start), False⟩,
    ⟨"lines", (PresentsArray (fun text row => Presents row.entries text) · dump.lines), False⟩,
    ⟨"symbols", (PresentsArray (fun text row => Presents row.entries text) · dump.symbols), False⟩,
    ⟨"literals", (PresentsArray (fun text row => Presents row.entries text) · dump.literals),
      False⟩,
    ⟨"pools", (PresentsArray IsNatural · dump.pools), False⟩,
    ⟨"diagnostics", (PresentsArray Spells · dump.diagnostics), False⟩]

/-- A text presents a dump: it holds a presentation of the fields, and white space around it. -/
def Presented (dump : Dump) (text : String) : Prop :=
  IsSpaced (Presents dump.entries) text.toList

/-! ### Fields -/

private theorem isNatural_writeNatural (n : Nat) : IsNatural (writeNatural n) n :=
  rfl

private theorem reads_isNatural {range : Range} {n : Nat} (h : n ≤ range.limit) (text : List Char)
    (htext : IsNatural text n) : Reads (readNatural range) text n := by
  obtain rfl : text = writeNatural n := htext
  exact reads_writeNatural h

/-- An address is read, or that there is none. -/
theorem reads_address {address? : Option Nat}
    (h : ∀ address ∈ address?, address ≤ Range.address.limit) (text : List Char)
    (htext : PresentsOption IsNatural text address?) :
    Reads (readOption (readNatural .address)) text address? := by
  refine htext.reads fun address hmem text htext =>
    ⟨reads_isNatural (h address hmem) text htext, ?_⟩
  obtain rfl : text = writeNatural address := htext
  obtain ⟨c, rest, hwritten, hdigit⟩ := exists_digit_writeNatural address
  rw [hwritten, List.head?_cons]
  rintro hnull
  obtain rfl := Option.some.inj hnull
  cases hdigit

/-- A word is read, or that there is none. -/
private theorem reads_word {word? : Option String} (text : List Char)
    (htext : PresentsOption Spells text word?) : Reads (readOption readText) text word? := by
  refine htext.reads fun word _ text htext => ⟨reads_of_spells htext, ?_⟩
  obtain ⟨units, -, rfl⟩ := htext
  exact fun hnull => absurd (Option.some.inj hnull) (by decide)

/-- A field is read if its value is. -/
theorem readsEntry_field {α draft : Type} {name : String} {get : draft → Option α}
    {set : draft → α → draft} {read : Reader α} {draftOf : List String → draft} {value : α}
    {presents : List Char → Prop} {omittable : Prop}
    (hget : ∀ given, get (draftOf given) = ifGiven given name value)
    (hset : ∀ given, set (draftOf given) value = draftOf (name :: given))
    (hread : ∀ text, presents text → Reads read text value) :
    Shape.ReadsEntry draftOf ⟨name, presents, omittable⟩ (field name get set read) where
  name_eq := rfl
  free given hfresh := by
    change (get (draftOf given)).isSome = false
    rw [hget, ifGiven_of_not_mem hfresh]
    rfl
  reads given text htext := by
    obtain ⟨hbegins, hreads⟩ := hread text htext
    refine ⟨hbegins, fun gap rest hgap hrest => ?_⟩
    change (read (gap ++ (text ++ rest))).map _ = _
    rw [hreads gap rest hgap hrest, ← hset]
    rfl

/-! ### Rows -/

/-- The draft of a record that has some of its fields. -/
def Line.draftOf (row : Line) (given : List String) : Draft where
  line := ifGiven given "line_number" row.line
  address := ifGiven given "offset" row.address
  intermediate := ifGiven given "intermediate" row.intermediate
  word := ifGiven given "word" row.word

/-- A record is read from the texts of its fields. -/
theorem Line.readsEntries {row : Line} (h : row.Fits) :
    Line.shape.ReadsEntries row row.entries row.draftOf where
  nodup := (by decide : ["line_number", "offset", "intermediate", "word"].Nodup)
  blank := rfl
  fields := by
    refine .cons (readsEntry_field (fun _ => rfl) (fun _ => by simp [draftOf])
      (reads_isNatural h.line)) ?_
    refine .cons (readsEntry_field (fun _ => rfl) (fun _ => by simp [draftOf])
      (reads_isNatural h.address)) ?_
    refine .cons (readsEntry_field (fun _ => rfl) (fun _ => by simp [draftOf])
      fun _ => reads_of_spells) ?_
    refine .cons (readsEntry_field (fun _ => rfl) (fun _ => by simp [draftOf])
      reads_word) .nil
  finish given hgiven := by
    simp only [entries, List.forall_mem_cons, or_false] at hgiven
    obtain ⟨hline, haddress, hintermediate, hword, -⟩ := hgiven
    simp only [shape, draftOf, ifGiven_of_mem hline, ifGiven_of_mem haddress,
      ifGiven_of_mem hintermediate, getD_ifGiven hword]
    rfl

/-- The draft of a symbol that has some of its fields. -/
def Symbol.draftOf (row : Symbol) (given : List String) : Draft where
  index := ifGiven given "index" row.index
  name := ifGiven given "name" row.name
  address := ifGiven given "address" row.address
  length := ifGiven given "length" row.length

/-- A symbol is read from the texts of its fields. -/
theorem Symbol.readsEntries {row : Symbol} (h : row.Fits) :
    Symbol.shape.ReadsEntries row row.entries row.draftOf where
  nodup := (by decide : ["index", "name", "address", "length"].Nodup)
  blank := rfl
  fields := by
    refine .cons (readsEntry_field (fun _ => rfl) (fun _ => by simp [draftOf])
      (reads_isNatural h.index)) ?_
    refine .cons (readsEntry_field (fun _ => rfl) (fun _ => by simp [draftOf])
      fun _ => reads_of_spells) ?_
    refine .cons (readsEntry_field (fun _ => rfl) (fun _ => by simp [draftOf])
      (reads_address h.address)) ?_
    refine .cons (readsEntry_field (fun _ => rfl) (fun _ => by simp [draftOf])
      (reads_isNatural h.length)) .nil
  finish given hgiven := by
    simp only [entries, List.forall_mem_cons, or_false] at hgiven
    obtain ⟨hindex, hname, haddress, hlength, -⟩ := hgiven
    simp only [shape, draftOf, ifGiven_of_mem hindex, ifGiven_of_mem hname, getD_ifGiven haddress,
      ifGiven_of_mem hlength]
    rfl

/-- The draft of a literal that has some of its fields. -/
def Literal.draftOf (row : Literal) (given : List String) : Draft where
  index := ifGiven given "index" row.index
  text := ifGiven given "text" row.text
  address := ifGiven given "address" row.address

/-- A literal is read from the texts of its fields. -/
theorem Literal.readsEntries {row : Literal} (h : row.Fits) :
    Literal.shape.ReadsEntries row row.entries row.draftOf where
  nodup := (by decide : ["index", "text", "address"].Nodup)
  blank := rfl
  fields := by
    refine .cons (readsEntry_field (fun _ => rfl) (fun _ => by simp [draftOf])
      (reads_isNatural h.index)) ?_
    refine .cons (readsEntry_field (fun _ => rfl) (fun _ => by simp [draftOf])
      fun _ => reads_of_spells) ?_
    refine .cons (readsEntry_field (fun _ => rfl) (fun _ => by simp [draftOf])
      (reads_address h.address)) .nil
  finish given hgiven := by
    simp only [entries, List.forall_mem_cons, or_false] at hgiven
    obtain ⟨hindex, htext, haddress, -⟩ := hgiven
    simp only [shape, draftOf, ifGiven_of_mem hindex, ifGiven_of_mem htext, getD_ifGiven haddress]
    rfl

/-! ### Dumps -/

/-- The draft of a dump that has some of its fields. -/
def draftOf (dump : Dump) (given : List String) : Draft where
  name := ifGiven given "name" dump.name
  start := ifGiven given "start" dump.start
  lines := ifGiven given "lines" dump.lines
  symbols := ifGiven given "symbols" dump.symbols
  literals := ifGiven given "literals" dump.literals
  pools := ifGiven given "pools" dump.pools
  diagnostics := ifGiven given "diagnostics" dump.diagnostics

/-- A dump is read from the texts of its fields. -/
theorem readsEntries {dump : Dump} (h : dump.Fits) :
    shape.ReadsEntries dump dump.entries dump.draftOf where
  nodup :=
    (by decide :
      ["name", "start", "lines", "symbols", "literals", "pools", "diagnostics"].Nodup)
  blank := rfl
  fields := by
    refine .cons (readsEntry_field (fun _ => rfl) (fun _ => by simp [draftOf])
      fun _ => reads_of_spells) ?_
    refine .cons (readsEntry_field (fun _ => rfl) (fun _ => by simp [draftOf])
      (reads_isNatural h.start)) ?_
    refine .cons (readsEntry_field (fun _ => rfl) (fun _ => by simp [draftOf])
      fun _ htext => htext.reads fun row hmem _ =>
        (Line.readsEntries (h.lines row hmem)).reads) ?_
    refine .cons (readsEntry_field (fun _ => rfl) (fun _ => by simp [draftOf])
      fun _ htext => htext.reads fun row hmem _ =>
        (Symbol.readsEntries (h.symbols row hmem)).reads) ?_
    refine .cons (readsEntry_field (fun _ => rfl) (fun _ => by simp [draftOf])
      fun _ htext => htext.reads fun row hmem _ =>
        (Literal.readsEntries (h.literals row hmem)).reads) ?_
    refine .cons (readsEntry_field (fun _ => rfl) (fun _ => by simp [draftOf])
      fun _ htext => htext.reads fun index hmem => reads_isNatural (h.pools index hmem)) ?_
    refine .cons (readsEntry_field (fun _ => rfl) (fun _ => by simp [draftOf])
      fun _ htext => htext.reads fun _ _ _ => reads_of_spells) .nil
  finish given hgiven := by
    simp only [entries, List.forall_mem_cons, or_false] at hgiven
    obtain ⟨hname, hstart, hlines, hsymbols, hliterals, hpools, hdiagnostics, -⟩ := hgiven
    simp only [shape, draftOf, ifGiven_of_mem hname, ifGiven_of_mem hstart, ifGiven_of_mem hlines,
      ifGiven_of_mem hsymbols, ifGiven_of_mem hliterals, ifGiven_of_mem hpools,
      ifGiven_of_mem hdiagnostics]
    rfl

/-! ### What is written -/

private theorem Line.presents_write (row : Line) : Presents row.entries row.write :=
  presents_writeObject <|
    .cons ⟨rfl, rfl⟩ <| .cons ⟨rfl, rfl⟩ <| .cons ⟨rfl, spells_writeString _⟩ <|
    .cons ⟨rfl, presentsOption_writeOption spells_writeString _⟩ .nil

private theorem Symbol.presents_write (row : Symbol) : Presents row.entries row.write :=
  presents_writeObject <|
    .cons ⟨rfl, rfl⟩ <| .cons ⟨rfl, spells_writeString _⟩ <|
    .cons ⟨rfl, presentsOption_writeOption isNatural_writeNatural _⟩ <| .cons ⟨rfl, rfl⟩ .nil

private theorem Literal.presents_write (row : Literal) : Presents row.entries row.write :=
  presents_writeObject <|
    .cons ⟨rfl, rfl⟩ <| .cons ⟨rfl, spells_writeString _⟩ <|
    .cons ⟨rfl, presentsOption_writeOption isNatural_writeNatural _⟩ .nil

private theorem presents_write (dump : Dump) : Presents dump.entries dump.write :=
  presents_writeObject <|
    .cons ⟨rfl, spells_writeString _⟩ <| .cons ⟨rfl, rfl⟩ <|
    .cons ⟨rfl, presentsArray_writeArray Line.presents_write _⟩ <|
    .cons ⟨rfl, presentsArray_writeArray Symbol.presents_write _⟩ <|
    .cons ⟨rfl, presentsArray_writeArray Literal.presents_write _⟩ <|
    .cons ⟨rfl, presentsArray_writeArray isNatural_writeNatural _⟩ <|
    .cons ⟨rfl, presentsArray_writeArray spells_writeString _⟩ .nil

theorem toList_text (dump : Dump) : dump.text.toList = dump.write :=
  String.toList_ofList

/-- The text that is written for a dump presents it. -/
theorem presented_text (dump : Dump) : dump.Presented dump.text := by
  rw [Presented, toList_text]
  exact isSpaced_of_isPart (presents_write dump)

/-- A text that presents a dump is read as this dump. -/
theorem Presented.ofText_eq {dump : Dump} {text : String} (htext : dump.Presented text)
    (h : dump.Fits) : ofText text = .ok dump :=
  readDocument_eq (htext.imp fun _ => (readsEntries h).reads)

/-- How a dump is presented makes no difference: what is written for it is one of the texts that
present it, and each of them is read as this dump. -/
theorem ofText_of_presented {dump : Dump} (h : dump.Fits) :
    dump.Presented dump.text ∧ ∀ text, dump.Presented text → ofText text = .ok dump :=
  ⟨presented_text dump, fun _ htext => htext.ofText_eq h⟩

/-- A dump with rows that have no address and no word. -/
def sparseDump : Dump where
  name := "a\"b"
  start := 4294967295
  lines := [⟨1, 0, "(AD,01)", none⟩]
  symbols := [⟨1, "X", none, 1⟩]

/-- Members that give it in another order.  A symbol has its keys in another order and no address, a
record is an array, and there is a key that names no field. -/
def sparseMembers : List String :=
  ["\"symbols\":[ \x7b\"length\":1,\"name\":\"X\",\"index\":1\x7d ]",
    "\"more\":\x7b\"\":[]\x7d", "\"name\":\"a\\\"b\"",
    "\"lines\":[[1,0,\"(AD,01)\",null]]", "\n\"start\" : 4294967295", "\"literals\":[]",
    "\"pools\":[ ]", "\"diagnostics\":[]"]

/-- A text that presents it. -/
def sparseText : String :=
  "\x7b" ++ ",".intercalate sparseMembers ++ "\x7d\n"

private theorem presents_sparseSymbol :
    Presents (Symbol.entries ⟨1, "X", none, 1⟩)
      (objectText [writeMember "length" ['1'], writeMember "name" (writeString "X"),
        writeMember "index" ['1']] []) := by
  have hlength : Gives (Symbol.entries ⟨1, "X", none, 1⟩)
      [⟨"length", (IsNatural · 1), False⟩] [writeMember "length" ['1']] :=
    .given (.refl _) (Entry.isGiven_writeMember rfl) (.omitted fun _ hmem => by cases hmem)
  have hgives : Gives (Symbol.entries ⟨1, "X", none, 1⟩) (Symbol.entries ⟨1, "X", none, 1⟩)
      [writeMember "index" ['1'], writeMember "name" (writeString "X"),
        writeMember "length" ['1']] :=
    .given (.refl _) (Entry.isGiven_writeMember rfl) <|
      .given (.refl _) (Entry.isGiven_writeMember (spells_writeString "X")) (hlength.omit rfl)
  exact .object (hgives.perm (by decide)) isGap_nil

private theorem presents_sparseLine :
    Presents (Line.entries ⟨1, 0, "(AD,01)", none⟩)
      (arrayText [['1'], ['0'], writeString "(AD,01)", ['n', 'u', 'l', 'l']] []) :=
  .array (.cons (isSpaced_of_isPart rfl) <| .cons (isSpaced_of_isPart rfl) <|
    .cons (isSpaced_of_isPart (spells_writeString _)) <| .cons (isSpaced_of_isPart .none) .nil)
    isGap_nil

private theorem isForeign_sparseMember :
    IsForeign sparseDump.entries (writeMember "more" (writeObject [("", writeArray [])])) :=
  isForeign_writeMember (by simp [entries]) <| IsValue.isJson <| isValue_writeObject <|
    List.forall_mem_singleton.mpr (isValue_writeArray fun _ hmem => by cases hmem)

private theorem gives_sparseMembers :
    Gives sparseDump.entries sparseDump.entries (sparseMembers.map String.toList) := by
  have hstart : (⟨"start", (IsNatural · sparseDump.start), False⟩ : Entry).IsGiven
      (memberText ⟨['\n'], writeString "start", [' ']⟩ ⟨[' '], writeNatural 4294967295, []⟩) :=
    .mk ⟨by decide, by decide⟩ (spells_writeString "start") ⟨by decide, by decide⟩ rfl
  have hlines : PresentsArray (fun text (row : Line) => Presents row.entries text)
      (arrayText [arrayText [['1'], ['0'], writeString "(AD,01)", ['n', 'u', 'l', 'l']] []] [])
      sparseDump.lines :=
    .mk (.cons (isSpaced_of_isPart presents_sparseLine) .nil) isGap_nil
  have hsymbols : PresentsArray (fun text (row : Symbol) => Presents row.entries text)
      (arrayText [Slot.text ⟨[' '], objectText [writeMember "length" ['1'],
        writeMember "name" (writeString "X"), writeMember "index" ['1']] [], [' ']⟩] [])
      sparseDump.symbols :=
    .mk (.cons ⟨_, ⟨by decide, by decide⟩, presents_sparseSymbol, rfl⟩ .nil) isGap_nil
  have hpools : PresentsArray IsNatural (arrayText [] [' ']) sparseDump.pools :=
    .mk .nil (by decide)
  have hgives : Gives sparseDump.entries sparseDump.entries [_, _, _, _, _, _, _, _] :=
    .foreign isForeign_sparseMember <|
    .given (.refl _) (Entry.isGiven_writeMember (spells_writeString "a\"b")) <|
    .given (.refl _) hstart <|
    .given (.refl _) (Entry.isGiven_writeMember hlines) <|
    .given (.refl _) (Entry.isGiven_writeMember hsymbols) <|
    .given (.refl _) (Entry.isGiven_writeMember (.mk .nil isGap_nil)) <|
    .given (.refl _) (Entry.isGiven_writeMember hpools) <|
    .given (.refl _) (Entry.isGiven_writeMember (.mk .nil isGap_nil)) <|
    .omitted fun _ hmem => by cases hmem
  exact hgives.perm (by decide +kernel)

theorem ofText_sparseText :
    sparseDump.Fits ∧ sparseDump.Presented sparseText ∧ ofText sparseText = .ok sparseDump := by
  have hfits : sparseDump.Fits :=
    ⟨by decide,
      List.forall_mem_singleton.mpr ⟨by decide, by decide⟩,
      List.forall_mem_singleton.mpr ⟨by decide, by decide, by decide⟩,
      fun _ hmem => absurd hmem List.not_mem_nil, fun _ hmem => absurd hmem List.not_mem_nil⟩
  have hpresented : sparseDump.Presented sparseText :=
    ⟨⟨[], objectText (sparseMembers.map String.toList) [], ['\n']⟩, ⟨isGap_nil, by decide⟩,
      .object gives_sparseMembers isGap_nil, by decide +kernel⟩
  exact ⟨hfits, hpresented, (ofText_of_presented hfits).2 sparseText hpresented⟩

end Assembler.Dump
