import Assembler.Fault
import Assembler.Text.Line

/-!
# The literal table

Literals are kept in the order of their first use and known by their index in it, counted from
1.  A literal waits without an address in the open pool until the pool is placed; then all that
wait get consecutive addresses, and a new pool is opened.  Using a literal again that has been
placed refers to the same place.

Placing a pool takes all its literals or none: when they would run past the largest address the
table stays as it is, and the pool stays open for the next attempt.

A row carries the text that it is found by.  Rows that are kept under a key have the text twice,
as the key and in the row; here the two are one, so that they agree is part of the type.

## Main definitions

* `Literal`, `LiteralTable` : rows, and the table with its pools.
* `LiteralTable.intern` : the index of a literal that is used.
* `LiteralTable.placeOpen`, `LiteralTable.placeAll` : placing the open pool, and whatever waits.
* `LiteralTable.get?`, `LiteralTable.find?` : rows by index and by text.
* `LiteralTable.text`, `LiteralTable.poolText` : the printed tables.

## Main results

* `LiteralTable.texts_intern` : a literal that is used comes to stand at the end of the table,
  unless it is there.
* `LiteralTable.texts_placeAfter` : placing literals changes no text.
-/

namespace Assembler

/-- A row of the literal table. -/
structure Literal where
  text : String
  address : Option Nat := none
  deriving DecidableEq, Repr

/-- Literals in the order of their first use, with the pools that have been placed. -/
structure LiteralTable where
  literals : List Literal := []
  /-- The index of the first literal that each placed pool gave an address. -/
  pools : List Nat := []
  /-- The number of literals before the open pool. -/
  mark : Nat := 0
  deriving DecidableEq, Repr

/-- Literals with consecutive addresses from `next` on for those that have none. -/
def Literal.placeFrom (next : Nat) : List Literal → List Literal
  | [] => []
  | literal :: rest =>
    match literal.address with
    | some _ => literal :: placeFrom next rest
    | none => { literal with address := some next } :: placeFrom (next + 1) rest

/-- Placing literals changes no text. -/
theorem Literal.map_text_placeFrom (next : Nat) (literals : List Literal) :
    (placeFrom next literals).map text = literals.map text := by
  induction literals generalizing next with
  | nil => rfl
  | cons literal rest ih =>
    rw [placeFrom]
    split <;> simp [ih]

namespace LiteralTable

/-- The texts of a table in the order of their indices. -/
def texts (table : LiteralTable) : List String :=
  table.literals.map Literal.text

/-- The number of literals. -/
def size (table : LiteralTable) : Nat :=
  table.literals.length

/-- The index of a text.  A text that is not in the table has the index that it would get by
being used. -/
def index (table : LiteralTable) (text : String) : Nat :=
  table.texts.idxOf text + 1

/-- The row with an index, counted from 1. -/
def get? (table : LiteralTable) : Nat → Option Literal
  | 0 => none
  | position + 1 => table.literals[position]?

/-- The row of a text. -/
def find? (table : LiteralTable) (text : String) : Option Literal :=
  table.literals.find? fun literal => literal.text == text

/-- The index of a literal that is used, and the table in which it has a row. -/
def intern (table : LiteralTable) (text : String) : Nat × LiteralTable :=
  (table.index text,
    if text ∈ table.texts then table
    else { table with literals := table.literals ++ [⟨text, none⟩] })

/-- The number of literals after the first `skipped` that wait for an address. -/
def waiting (table : LiteralTable) (skipped : Nat) : Nat :=
  (table.literals.drop skipped).countP fun literal => literal.address.isNone

/-- The index of the first literal after the first `skipped` that waits for an address. -/
def firstWaiting? (table : LiteralTable) (skipped : Nat) : Option Nat :=
  ((table.literals.drop skipped).findIdx? fun literal => literal.address.isNone).map
    (skipped + · + 1)

/-- Places the literals after the first `skipped` from `address` on.  The result has the number
of words placed, and the table in which they form a pool and a new pool is open.

The number of words is the number of literals, whatever it is.  Where it is kept in the width of
an address it is cut down to `maxAddress`, so that from address 0 a longer pool would pass for one
with room and its addresses would run over; here such a pool is refused like any that does not
fit. -/
def placeAfter (table : LiteralTable) (skipped address : Nat) :
    Except Fault (Nat × LiteralTable) :=
  let words := table.waiting skipped
  if address + words ≤ maxAddress then
    .ok (words,
      { literals := table.literals.take skipped ++
          Literal.placeFrom address (table.literals.drop skipped)
        pools := table.pools ++ (table.firstWaiting? skipped).toList
        mark := table.size })
  else .error (.locationOverflow address words)

/-- Places the open pool at an address. -/
def placeOpen (table : LiteralTable) (address : Nat) : Except Fault (Nat × LiteralTable) :=
  table.placeAfter table.mark address

/-- Places every literal that waits, whatever its pool. -/
def placeAll (table : LiteralTable) (address : Nat) : Except Fault (Nat × LiteralTable) :=
  table.placeAfter 0 address

/-- A literal that is used comes to stand at the end, unless it is there. -/
theorem texts_intern (table : LiteralTable) (text : String) :
    (table.intern text).2.texts =
      if text ∈ table.texts then table.texts else table.texts ++ [text] := by
  unfold intern
  dsimp only
  split <;> simp [texts]

/-- Placing literals changes no text. -/
theorem texts_placeAfter {table placed : LiteralTable} {skipped address words : Nat}
    (h : table.placeAfter skipped address = .ok (words, placed)) :
    placed.texts = table.texts := by
  simp only [placeAfter] at h
  split at h
  · simp only [Except.ok.injEq, Prod.mk.injEq] at h
    obtain ⟨-, rfl⟩ := h
    simp only [texts, List.map_append, Literal.map_text_placeFrom]
    rw [← List.map_append, List.take_append_drop]
  · simp at h

/-- Every literal with its index. -/
def indexed (table : LiteralTable) : List (Nat × Literal) :=
  (table.literals.zipIdx 1).map Prod.swap

/-- The printed row of a literal: index, text and address, with 0 for a missing address. -/
def rowText (index : Nat) (literal : Literal) : String :=
  index.repr ++ " " ++ literal.text ++ " " ++ (literal.address.getD 0).repr

/-- The printed table, one row a line. -/
def text (table : LiteralTable) : String :=
  Text.ofLines (table.indexed.map fun (index, literal) => rowText index literal)

/-- The printed pools: the first index of each, one a line. -/
def poolText (table : LiteralTable) : String :=
  Text.ofLines (table.pools.map Nat.repr)

end LiteralTable

end Assembler
