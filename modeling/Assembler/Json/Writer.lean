/-!
# Writing JSON

Values are written without any space between their parts.  In a string only the quotation mark,
the backslash and the control characters below U+0020 are escaped; everything else, be it the
solidus, U+007F or a character outside ASCII, stands for itself.

## Main definitions

* `writeString`, `writeNatural`, `writeOption` : scalars.
* `writeArray`, `writeObject` : values made of values that have been written.
-/

namespace Assembler.Json

/-- The characters that stand for one character inside a string.  The five control characters
that have a short escape are written with it, the others by number. -/
def escape (c : Char) : List Char :=
  if c = '"' then ['\\', '"']
  else if c = '\\' then ['\\', '\\']
  else if c = '\x08' then ['\\', 'b']
  else if c = '\t' then ['\\', 't']
  else if c = '\n' then ['\\', 'n']
  else if c = '\x0c' then ['\\', 'f']
  else if c = '\r' then ['\\', 'r']
  else if c.toNat < 0x20 then
    ['\\', 'u', '0', '0', (c.toNat / 16).digitChar, (c.toNat % 16).digitChar]
  else [c]

/-- A string between quotation marks. -/
def writeString (text : String) : List Char :=
  '"' :: (text.toList.flatMap escape ++ ['"'])

/-- A natural number in decimal. -/
def writeNatural (n : Nat) : List Char :=
  Nat.toDigits 10 n

/-- A value, or `null` where there is none. -/
def writeOption {α : Type} (write : α → List Char) : Option α → List Char
  | none => ['n', 'u', 'l', 'l']
  | some value => write value

/-- Written values with commas between them. -/
def separated (items : List (List Char)) : List Char :=
  [','].intercalate items

/-- An array of written values. -/
def writeArray (items : List (List Char)) : List Char :=
  '[' :: (separated items ++ [']'])

/-- A member of an object: its key and its written value. -/
def writeMember (key : String) (value : List Char) : List Char :=
  writeString key ++ ':' :: value

/-- An object with the given keys and written values, in this order. -/
def writeObject (members : List (String × List Char)) : List Char :=
  '\x7b' :: (separated (members.map fun (key, value) => writeMember key value) ++ ['\x7d'])

end Assembler.Json
