import Assembler.Text.Extender
import Assembler.Text.Printable

/-!
# Quoted text for messages

A text that a message cites is put between quotation marks, and every character in it that a
reader could not see or tell apart is shown by its escape or by its code point.

## Main definitions

* `quotedChar` : how one character is shown.
* `quoted` : how a text is shown.
-/

namespace Assembler.Text

/-- A character shown by its code point in lower-case hexadecimal. -/
def codePoint (c : Char) : List Char :=
  ['\\', 'u', '\x7b'] ++ Nat.toDigits 16 c.toNat ++ ['\x7d']

/-- How one character of a quoted text is shown. -/
def quotedChar (c : Char) : List Char :=
  if c = '\x00' then ['\\', '0']
  else if c = '\t' then ['\\', 't']
  else if c = '\n' then ['\\', 'n']
  else if c = '\r' then ['\\', 'r']
  else if c = '"' then ['\\', '"']
  else if c = '\\' then ['\\', '\\']
  else if isExtender c then codePoint c
  else if isPrintable c then [c]
  else codePoint c

/-- How a text is shown: between quotation marks. -/
def quoted (text : String) : String :=
  String.ofList ('"' :: (text.toList.flatMap quotedChar ++ ['"']))

end Assembler.Text
