import Assembler.Json.Failure

/-!
# Reading JSON strings

A string is read from behind its opening quotation mark.  Control characters must be escaped.
An escape by number names a UTF-16 unit, so a character beyond U+FFFF takes two of them, and a
unit that is only half of such a pair is refused.

A string that nobody asked for is passed over: its escapes are checked one by one, but not
whether units pair up.

Several readers take a text as their bound: any text that is no shorter than the one to be read.
Each of their rounds consumes a character, so they are done before the bound is.

## Main definitions

* `readString` : the characters of a string.
* `skipString` : passing over a string.
-/

namespace Assembler.Json

/-- The value of a hexadecimal digit. -/
def hexDigit? (c : Char) : Option Nat :=
  if c.isDigit then some (c.toNat - '0'.toNat)
  else if 'a' ≤ c ∧ c ≤ 'f' then some (c.toNat - 'a'.toNat + 10)
  else if 'A' ≤ c ∧ c ≤ 'F' then some (c.toNat - 'A'.toNat + 10)
  else none

/-- The number of bytes, up to four characters of it, that a text takes in UTF-8. -/
def leadingBytes (text : List Char) : Nat :=
  (text.take 4).foldl (fun bytes c => bytes + c.utf8Size) 0

/-- Reads the four digits of a UTF-16 unit.  The text is too short for them when fewer than four
bytes are left. -/
def readUnit (text : List Char) : Except Failure (Nat × List Char) :=
  if leadingBytes text < 4 then .error .truncated
  else
    match text with
    | a :: b :: c :: d :: rest =>
      match hexDigit? a, hexDigit? b, hexDigit? c, hexDigit? d with
      | some a, some b, some c, some d => .ok (((a * 16 + b) * 16 + c) * 16 + d, rest)
      | _, _, _, _ => .error .illFormed
    | _ => .error .illFormed

/-- Whether a UTF-16 unit is the first half of a pair. -/
def isLeading (unit : Nat) : Bool :=
  0xD800 ≤ unit && unit ≤ 0xDBFF

/-- Whether a UTF-16 unit is the second half of a pair. -/
def isTrailing (unit : Nat) : Bool :=
  0xDC00 ≤ unit && unit ≤ 0xDFFF

/-- Reads a character that must stand next. -/
def readExact (wanted : Char) : List Char → Except Failure (List Char)
  | [] => .error .truncated
  | c :: rest => if c = wanted then .ok rest else .error .illFormed

/-- Reads the second half of the pair that a unit begins. -/
def readPair (leading : Nat) (text : List Char) : Except Failure (Char × List Char) := do
  let text ← readExact '\\' text
  let text ← readExact 'u' text
  let (trailing, rest) ← readUnit text
  if isTrailing trailing then
    return (Char.ofNat ((leading - 0xD800) * 0x400 + (trailing - 0xDC00) + 0x10000), rest)
  else throw .illFormed

/-- Reads the character that an escape by number names, from behind the letter that marks it. -/
def readCodePoint (text : List Char) : Except Failure (Char × List Char) := do
  let (unit, rest) ← readUnit text
  if isLeading unit then readPair unit rest
  else if isTrailing unit then throw .illFormed
  else return (Char.ofNat unit, rest)

/-- The character that a letter names behind a backslash. -/
def escaped? (letter : Char) : Option Char :=
  match letter with
  | '"' => some '"'
  | '\\' => some '\\'
  | '/' => some '/'
  | 'b' => some '\x08'
  | 'f' => some '\x0c'
  | 'n' => some '\n'
  | 'r' => some '\r'
  | 't' => some '\t'
  | _ => none

/-- Reads the character that an escape names, from behind the backslash. -/
def readEscape : Reader Char
  | [] => .error .truncated
  | letter :: rest =>
    if letter = 'u' then readCodePoint rest
    else
      match escaped? letter with
      | some c => .ok (c, rest)
      | none => .error .illFormed

/-- Reads the next character of a string; none, if the string ends. -/
def readChar : Reader (Option Char)
  | [] => .error .truncated
  | c :: rest =>
    if c = '"' then .ok (none, rest)
    else if c = '\\' then (readEscape rest).map fun (c, rest) => (some c, rest)
    else if c.toNat < 0x20 then .error .illFormed
    else .ok (some c, rest)

/-- Reads the characters of a string up to its end. -/
def readChars : (bound : List Char) → Reader (List Char)
  | [], _ => .error .truncated
  | _ :: bound, text => do
    match ← readChar text with
    | (none, rest) => return ([], rest)
    | (some c, rest) =>
      let (chars, rest) ← readChars bound rest
      return (c :: chars, rest)

/-- Reads a string from behind its opening quotation mark. -/
def readString (text : List Char) : Except Failure (String × List Char) :=
  (readChars text text).map fun (chars, rest) => (String.ofList chars, rest)

/-- Passes over an escape, from behind the backslash. -/
def skipEscape : List Char → Except Failure (List Char)
  | [] => .error .truncated
  | letter :: rest =>
    if letter = 'u' then (readUnit rest).map Prod.snd
    else if (escaped? letter).isSome then .ok rest
    else .error .illFormed

/-- Passes over the characters of a string up to its end. -/
def skipChars : (bound : List Char) → List Char → Except Failure (List Char)
  | [], _ => .error .truncated
  | _, [] => .error .truncated
  | _ :: bound, c :: rest =>
    if c = '"' then .ok rest
    else if c = '\\' then
      match skipEscape rest with
      | .ok rest => skipChars bound rest
      | .error failure => .error failure
    else if c.toNat < 0x20 then .error .illFormed
    else skipChars bound rest

/-- Passes over a string from behind its opening quotation mark. -/
def skipString (text : List Char) : Except Failure (List Char) :=
  skipChars text text

end Assembler.Json
