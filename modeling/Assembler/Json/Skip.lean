import Assembler.Json.Number
import Assembler.Json.Text

/-!
# Passing over JSON values

A value that nobody asked for must still be well formed.  It may be nested to any depth, so the
brackets that are open are kept in a list and not in the course of the computation.

## Main definitions

* `skipSpace` : a text without the white space in front of it.
* `skipValue` : passing over a value.
-/

namespace Assembler.Json

/-- Whether a character may stand between the parts of a value. -/
def isSpace (c : Char) : Bool :=
  c == ' ' || c == '\t' || c == '\n' || c == '\r'

/-- A text without the white space in front of it. -/
def skipSpace (text : List Char) : List Char :=
  text.dropWhile isSpace

/-- Reads the rest of a word that must stand next. -/
def readWord : (word : List Char) → List Char → Except Failure (List Char)
  | [], text => .ok text
  | wanted :: word, text => do readWord word (← readExact wanted text)

/-- Whether a character begins a number. -/
def beginsNumber (c : Char) : Bool :=
  c == '-' || c.isDigit

/-- A bracket that is open. -/
inductive Bracket
  | array
  | object
  deriving DecidableEq, Repr

/-- Passes over a value without parts, the first character of which is `c`. -/
def skipScalar (c : Char) (rest : List Char) : Except Failure (List Char) :=
  if c = 'n' then readWord ['u', 'l', 'l'] rest
  else if c = 't' then readWord ['r', 'u', 'e'] rest
  else if c = 'f' then readWord ['a', 'l', 's', 'e'] rest
  else if c = '"' then skipString rest
  else if beginsNumber c then (readNumeral .illFormed (c :: rest)).map Prod.snd
  else .error .illFormed

/-- Passes over the key of a member and the colon behind it, with the white space around. -/
def skipKey (text : List Char) : Except Failure (List Char) := do
  let text ← readExact '"' (skipSpace text)
  let text ← skipString text
  readExact ':' (skipSpace text)

/-- Passes over an opening bracket.  The brackets that are then open are `none` if the bracket is
closed at once. -/
def skipOpening (c : Char) (rest : List Char) : Except Failure (Option Bracket × List Char) :=
  if c = '[' then
    match skipSpace rest with
    | ']' :: rest => .ok (none, rest)
    | rest => .ok (some .array, rest)
  else
    match skipSpace rest with
    | '\x7d' :: rest => .ok (none, rest)
    | rest => (skipKey rest).map fun rest => (some .object, rest)

/-- What stands behind a value inside an open bracket: the next value, or the end. -/
def skipFollowing (bracket : Bracket) (text : List Char) :
    Except Failure (Bool × List Char) :=
  match skipSpace text, bracket with
  | [], _ => .error .truncated
  | ',' :: rest, .array => .ok (true, rest)
  | ']' :: rest, .array => .ok (false, rest)
  | ',' :: rest, .object => (skipKey rest).map fun rest => (true, rest)
  | '\x7d' :: rest, .object => .ok (false, rest)
  | _, _ => .error .illFormed

/-- Passes over what is left of a value with open brackets.  `due` says whether a value stands
next, or has just ended. -/
def skipOpen : (bound : List Char) → (opened : List Bracket) → (due : Bool) → List Char →
    Except Failure (List Char)
  | _, [], false, text => .ok text
  | [], _, _, _ => .error .truncated
  | _ :: bound, bracket :: opened, false, text =>
    match skipFollowing bracket text with
    | .error failure => .error failure
    | .ok (true, rest) => skipOpen bound (bracket :: opened) true rest
    | .ok (false, rest) => skipOpen bound opened false rest
  | _ :: bound, opened, true, text =>
    match skipSpace text with
    | [] => .error .truncated
    | c :: rest =>
      if c = '[' ∨ c = '\x7b' then
        match skipOpening c rest with
        | .error failure => .error failure
        | .ok (none, rest) => skipOpen bound opened false rest
        | .ok (some bracket, rest) => skipOpen bound (bracket :: opened) true rest
      else
        match skipScalar c rest with
        | .error failure => .error failure
        | .ok rest => skipOpen bound opened false rest

/-- Passes over a value of any kind and depth. -/
def skipValue (text : List Char) : Except Failure (List Char) :=
  skipOpen text [] true text

end Assembler.Json
