import Assembler.Decimal.Shortest
import Assembler.Machine.Word
import Assembler.Text.Quoted

/-!
# Why JSON text is refused

Text can be refused because it is no JSON, because it ends too soon, or because it is JSON and
holds something else than what was asked for.  Only in the last case there is more to say: what
was found in the text, and what was wanted.

## Main definitions

* `Found`, `Wanted` : what the text holds, and what it should hold.
* `Mismatch`, `Mismatch.message` : the ways to hold something else, and their reports.
* `Failure` : the outcome of a reading that fails.
* `Reader` : readings that may fail.
-/

namespace Assembler.Json

/-- The ranges of natural numbers that are asked for. -/
inductive Range
  /-- Addresses, and numbers bounded like them. -/
  | address
  /-- Counts, indices and line numbers. -/
  | count
  deriving DecidableEq, Repr

/-- The greatest number of a range. -/
def Range.limit : Range → Nat
  | address => maxAddress
  | count => 18446744073709551615

/-- What a text holds where something else was wanted. -/
inductive Found
  | null
  | boolean (value : Bool)
  | natural (value : Nat)
  /-- A whole number below zero, by its distance from zero. -/
  | negative (value : Nat)
  /-- A number that is not taken as whole, by its sign and magnitude. -/
  | fractional (minus : Bool) (magnitude : Decimal.Magnitude)
  | string (text : String)
  | array
  | object
  deriving DecidableEq, Repr

/-- What a text should hold. -/
inductive Wanted
  | natural (range : Range)
  | string
  | array
  /-- The fields of a record of a certain name. -/
  | record (name : String)
  deriving DecidableEq, Repr

/-- The ways in which well-formed text can fail to hold what is wanted. -/
inductive Mismatch
  | wrongType (found : Found) (wanted : Wanted)
  | outOfRange (found : Found) (wanted : Wanted)
  | missingField (name : String)
  | duplicateField (name : String)
  /-- A record is given as an array of fewer values than it has fields. -/
  | tooShort (length : Nat) (record : String) (fields : Nat)
  deriving DecidableEq, Repr

/-- The outcome of a reading that fails. -/
inductive Failure
  /-- The text is not JSON. -/
  | illFormed
  /-- The text ends before the value does. -/
  | truncated
  | mismatch (mismatch : Mismatch)
  deriving DecidableEq, Repr

/-- The words for a range of numbers. -/
def Range.text : Range → String
  | address => "u32"
  | count => "usize"

/-- The words for what was found. -/
def Found.text : Found → String
  | null => "null"
  | boolean value => "boolean `" ++ (if value then "true" else "false") ++ "`"
  | natural value => "integer `" ++ value.repr ++ "`"
  | negative value => "integer `-" ++ value.repr ++ "`"
  | fractional minus magnitude =>
    "floating point `" ++ (if minus then "-" else "") ++ String.ofList magnitude.text ++ "`"
  | string text => "string " ++ Text.quoted text
  | array => "sequence"
  | object => "map"

/-- The words for what was wanted. -/
def Wanted.text : Wanted → String
  | natural range => range.text
  | string => "a string"
  | array => "a sequence"
  | record name => "struct " ++ name

/-- The sentence that reports a mismatch. -/
def Mismatch.message : Mismatch → String
  | wrongType found wanted => "invalid type: " ++ found.text ++ ", expected " ++ wanted.text
  | outOfRange found wanted => "invalid value: " ++ found.text ++ ", expected " ++ wanted.text
  | missingField name => "missing field `" ++ name ++ "`"
  | duplicateField name => "duplicate field `" ++ name ++ "`"
  | tooShort length record fields =>
    "invalid length " ++ length.repr ++ ", expected struct " ++ record ++ " with " ++
      fields.repr ++ " elements"

/-- A reader takes a value from the front of a text and leaves the rest. -/
abbrev Reader (α : Type) := List Char → Except Failure (α × List Char)

end Assembler.Json
