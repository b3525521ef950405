import Assembler.Fault
import Assembler.Text.Token

/-!
# Statements

A line of a program that is not blank holds either a literal that stands alone, or a statement:
an optional label, a mnemonic and at most two operands.  The first of two or more tokens is a
label exactly when it is not a mnemonic, so a label can never be spelled like a mnemonic.

## Main definitions

* `Operands`, `Statement`, `SourceLine` : what a line holds.
* `SourceLine.ofTokens` : the reading of a line's tokens.
* `SourceLine.ofText` : the reading of a line.
* `Operands.first?`, `Operands.memory?` : the operand that directives use, and the one that
  machine operations address memory with.

## Main results

* `Operands.ofList?_eq_some_iff` : at most two operands are taken, in their order.
-/

namespace Assembler

/-- The operands of a statement. -/
inductive Operands
  | none
  | one (operand : String)
  | two (first second : String)
  deriving DecidableEq, Repr

namespace Operands

/-- The operands in their order. -/
def toList : Operands → List String
  | none => []
  | one operand => [operand]
  | two first second => [first, second]

/-- The operands of a list that has at most two. -/
def ofList? : List String → Option Operands
  | [] => some none
  | [operand] => some (one operand)
  | [first, second] => some (two first second)
  | _ => Option.none

/-- The operand that a directive or a declaration uses: the first one. -/
def first? : Operands → Option String
  | none => Option.none
  | one operand => some operand
  | two first _ => some first

/-- The operand that names a place in memory: the last one, after a register if there are two. -/
def memory? : Operands → Option String
  | none => Option.none
  | one operand => some operand
  | two _ second => some second

/-- At most two operands are taken, in their order. -/
theorem ofList?_eq_some_iff {tokens : List String} {operands : Operands} :
    ofList? tokens = some operands ↔ tokens = operands.toList := by
  constructor
  · intro h
    unfold ofList? at h
    split at h <;> simp_all only [Option.some.injEq, reduceCtorEq] <;> subst h <;> rfl
  · rintro rfl
    cases operands <;> rfl

end Operands

/-- A statement of the program. -/
structure Statement where
  label : Option String
  mnemonic : Mnemonic
  operands : Operands
  deriving DecidableEq, Repr

/-- What a line that is not blank holds. -/
inductive SourceLine
  /-- A literal alone on its line, which asks for a place in the next pool. -/
  | literal (text : String)
  | statement (statement : Statement)
  deriving DecidableEq, Repr

/-- Whether a token is written as a literal. -/
def beginsLiteral (token : String) : Bool :=
  token.toList.head? == some '='

namespace Statement

/-- The statement that a mnemonic token and operand tokens form under a label. -/
def ofParts (label : Option String) (mnemonic : String) (operands : List String) :
    Except Fault Statement :=
  match Mnemonic.ofToken? mnemonic with
  | none => .error (.unknownMnemonic mnemonic)
  | some mnemonic =>
    match Operands.ofList? operands with
    | none => .error (.malformed (.tooManyOperands mnemonic operands.length))
    | some operands => .ok ⟨label, mnemonic, operands⟩

/-- The statement that a line's tokens form.  The first of several tokens is a label unless it
is a mnemonic. -/
def ofTokens : List String → Except Fault Statement
  | [] => .error (.malformed .empty)
  | [token] => ofParts none token []
  | first :: second :: rest =>
    if (Mnemonic.ofToken? first).isSome then ofParts none first (second :: rest)
    else if Text.isName first.toList then ofParts (some first) second rest
    else .error (.malformed (.badLabel first))

end Statement

namespace SourceLine

/-- What the tokens of a line mean. -/
def ofTokens (tokens : List String) : Except Fault SourceLine :=
  match tokens with
  | [token] =>
    if beginsLiteral token then .ok (.literal token)
    else (Statement.ofTokens tokens).map .statement
  | _ => (Statement.ofTokens tokens).map .statement

/-- What a line of program text means. -/
def ofText (line : String) : Except Fault SourceLine :=
  ofTokens ((Text.tokens (Text.trim line.toList)).map String.ofList)

end SourceLine

end Assembler
