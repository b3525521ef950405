import Assembler.Json.Skip

/-!
# Reading JSON into records

A record is given as an object whose keys are the names of its fields, in any order and among
other keys, or as an array of the values of its fields in their order.  The text is read from
front to back, and the first thing that is wrong with it decides how the reading fails.

While an object is read the fields found so far are kept in a draft.  Whether the draft is
complete is asked at the end of the object; whether a key has been there before is asked at the
key.

## Main definitions

* `readNatural`, `readText`, `readOption` : scalars.
* `readArray` : arrays of values of one kind.
* `Shape`, `Shape.read` : records.
* `readDocument` : a value that is the whole of a text.
-/

namespace Assembler.Json

/-- The failure of a reading that wanted something else than the value that `c` begins.  A
scalar is read to its end first, since it may be ill-formed. -/
def mismatchAt (wanted : Wanted) (c : Char) (rest : List Char) : Failure :=
  let found : Except Failure (Found × List Char) :=
    if c = 'n' then (readWord ['u', 'l', 'l'] rest).map fun rest => (.null, rest)
    else if c = 't' then (readWord ['r', 'u', 'e'] rest).map fun rest => (.boolean true, rest)
    else if c = 'f' then
      (readWord ['a', 'l', 's', 'e'] rest).map fun rest => (.boolean false, rest)
    else if c = '"' then (readString rest).map fun (text, rest) => (.string text, rest)
    else if c = '[' then .ok (.array, rest)
    else if c = '\x7b' then .ok (.object, rest)
    else if beginsNumber c then readNumber (c :: rest)
    else .error .illFormed
  match found with
  | .ok (found, _) => .mismatch (.wrongType found wanted)
  | .error failure => failure

/-- Reads a natural number of a range. -/
def readNatural (range : Range) (text : List Char) : Except Failure (Nat × List Char) :=
  match skipSpace text with
  | [] => .error .truncated
  | c :: rest =>
    if beginsNumber c then
      match readNumber (c :: rest) with
      | .error failure => .error failure
      | .ok (.natural n, rest) =>
        if n ≤ range.limit then .ok (n, rest)
        else .error (.mismatch (.outOfRange (.natural n) (.natural range)))
      | .ok (.negative n, _) => .error (.mismatch (.outOfRange (.negative n) (.natural range)))
      | .ok (found, _) => .error (.mismatch (.wrongType found (.natural range)))
    else .error (mismatchAt (.natural range) c rest)

/-- Reads a string. -/
def readText (text : List Char) : Except Failure (String × List Char) :=
  match skipSpace text with
  | [] => .error .truncated
  | c :: rest => if c = '"' then readString rest else .error (mismatchAt .string c rest)

/-- Reads a value, or nothing where `null` stands. -/
def readOption {α : Type} (read : Reader α) (text : List Char) :
    Except Failure (Option α × List Char) :=
  match skipSpace text with
  | 'n' :: rest => (readWord ['u', 'l', 'l'] rest).map fun rest => (none, rest)
  | rest => (read rest).map fun (value, rest) => (some value, rest)

/-- What stands next inside a bracket. -/
inductive Next
  /-- The bracket is closed, and a text follows it. -/
  | closed (rest : List Char)
  /-- Another value begins the text. -/
  | another (rest : List Char)

/-- What stands next inside an array.  All values but the first have a comma before them. -/
def nextItem (first : Bool) (text : List Char) : Except Failure Next :=
  match skipSpace text with
  | [] => .error .truncated
  | ']' :: rest => .ok (.closed rest)
  | c :: rest =>
    if first then .ok (.another (c :: rest))
    else if c = ',' then
      match skipSpace rest with
      | [] => .error .truncated
      | ']' :: _ => .error .illFormed
      | rest => .ok (.another rest)
    else .error .illFormed

/-- What stands next inside an object.  The text of another member begins behind the opening
quotation mark of its key. -/
def nextKey (first : Bool) (text : List Char) : Except Failure Next :=
  match skipSpace text with
  | [] => .error .truncated
  | '\x7d' :: rest => .ok (.closed rest)
  | c :: rest =>
    if first then (readExact '"' (c :: rest)).map .another
    else if c = ',' then (readExact '"' (skipSpace rest)).map .another
    else .error .illFormed

/-- Reads the values of an array up to its end. -/
def readItems {α : Type} (read : Reader α) :
    (bound : List Char) → (first : Bool) → Reader (List α)
  | [], _, _ => .error .truncated
  | _ :: bound, first, text => do
    match ← nextItem first text with
    | .closed rest => return ([], rest)
    | .another rest =>
      let (item, rest) ← read rest
      let (items, rest) ← readItems read bound false rest
      return (item :: items, rest)

/-- Reads an array of values of one kind. -/
def readArray {α : Type} (read : Reader α) (text : List Char) :
    Except Failure (List α × List Char) :=
  match skipSpace text with
  | [] => .error .truncated
  | c :: rest => if c = '[' then readItems read rest true rest
    else .error (mismatchAt .array c rest)

/-- A field of a record that is read into drafts. -/
structure FieldReader (draft : Type) where
  name : String
  /-- Whether a draft has the field. -/
  isFilled : draft → Bool
  /-- Reads the field into a draft. -/
  read : draft → Reader draft

/-- How a record is given. -/
structure Shape (draft record : Type) where
  name : String
  /-- The fields in their order. -/
  fields : List (FieldReader draft)
  /-- The draft without any field. -/
  blank : draft
  /-- The record of a draft that has all the fields it needs. -/
  finish : draft → Except Failure record

/-- A value that a draft must have when its record is complete. -/
def required {α : Type} (name : String) : Option α → Except Failure α
  | some value => .ok value
  | none => .error (.mismatch (.missingField name))

namespace Shape

variable {draft record : Type}

/-- Reads the value of a member into a draft.  The value of a key that names no field is passed
over. -/
def readMember (shape : Shape draft record) (key : String) (filled : draft) : Reader draft :=
  fun text =>
    match shape.fields.find? fun field => field.name == key with
    | none => do
      let rest ← skipValue (← readExact ':' (skipSpace text))
      return (filled, rest)
    | some field =>
      if field.isFilled filled then .error (.mismatch (.duplicateField field.name))
      else do field.read filled (← readExact ':' (skipSpace text))

/-- Reads the members of an object up to its end. -/
def readMembers (shape : Shape draft record) :
    (bound : List Char) → (first : Bool) → draft → Reader draft
  | [], _, _, _ => .error .truncated
  | _ :: bound, first, filled, text => do
    match ← nextKey first text with
    | .closed rest => return (filled, rest)
    | .another rest =>
      let (key, rest) ← readString rest
      let (filled, rest) ← shape.readMember key filled rest
      readMembers shape bound false filled rest

/-- Reads the values of fields in their order.  The number of values before them is
`position`. -/
def readFields (shape : Shape draft record) :
    List (FieldReader draft) → (position : Nat) → draft → Reader draft
  | [], _, filled, text => do
    let rest ← readExact ']' (skipSpace text)
    return (filled, rest)
  | field :: fields, position, filled, text => do
    match ← nextItem (position == 0) text with
    | .closed _ => throw (.mismatch (.tooShort position shape.name shape.fields.length))
    | .another rest =>
      let (filled, rest) ← field.read filled rest
      readFields shape fields (position + 1) filled rest

/-- Reads a record. -/
def read (shape : Shape draft record) (text : List Char) :
    Except Failure (record × List Char) :=
  match skipSpace text with
  | [] => .error .truncated
  | c :: rest => do
    let (filled, rest) ←
      if c = '\x7b' then shape.readMembers rest true shape.blank rest
      else if c = '[' then shape.readFields shape.fields 0 shape.blank rest
      else throw (mismatchAt (.record shape.name) c rest)
    return (← shape.finish filled, rest)

end Shape

/-- Reads a value that is the whole of a text but for white space. -/
def readDocument {α : Type} (read : Reader α) (text : List Char) : Except Failure α := do
  let (value, rest) ← read text
  match skipSpace rest with
  | [] => return value
  | _ => throw .illFormed

end Assembler.Json
