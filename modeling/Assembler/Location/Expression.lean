import Assembler.Fault
import Assembler.Table.Symbol

/-!
# Address expressions

An address is written as a numeral, as the name of a symbol, or as a name with a distance added
or taken away.  A symbol must have its address when the expression is evaluated, and the result
must be an address, so it can neither fall below zero nor pass `maxAddress`.

## Main definitions

* `Expression`, `Expression.ofText?` : expressions that begin with a name.
* `Expression.evaluate` : the address that a text denotes.
-/

namespace Assembler

/-- Whether a distance is added or taken away. -/
inductive Sign
  | plus
  | minus
  deriving DecidableEq, Repr

/-- The character of a sign. -/
def Sign.char : Sign → Char
  | plus => '+'
  | minus => '-'

/-- The address at a distance from another, if there is one. -/
def Sign.move? (sign : Sign) (base distance : Nat) : Option Nat :=
  match sign with
  | plus => if base + distance ≤ maxAddress then some (base + distance) else none
  | minus => if distance ≤ base then some (base - distance) else none

/-- A symbol, with the sign and the digits of a distance from it if there is one. -/
structure Expression where
  symbol : String
  offset : Option (Sign × String)
  deriving DecidableEq, Repr

namespace Expression

/-- The expression that a text with a name in front writes out.  Nothing may follow the name
but a sign and a numeral. -/
def ofText? (text : String) : Option Expression :=
  let name := text.toList.takeWhile Text.continuesName
  if Text.isName name then
    match text.toList.dropWhile Text.continuesName with
    | [] => some ⟨String.ofList name, none⟩
    | c :: digits =>
      if Text.isNumeral digits then
        if c = '+' then some ⟨String.ofList name, some (.plus, String.ofList digits)⟩
        else if c = '-' then some ⟨String.ofList name, some (.minus, String.ofList digits)⟩
        else none
      else none
  else none

/-- The address that an expression denotes.  A symbol without an address is the first thing to
be reported, even where the distance could not be used either. -/
def value (expression : Expression) (symbols : SymbolTable) (unusable : Fault) :
    Except Fault Nat :=
  match symbols.addressOf? expression.symbol with
  | none => .error (.undefinedSymbol expression.symbol)
  | some base =>
    match expression.offset with
    | none => .ok base
    | some (sign, digits) =>
      match (Text.readNumeral? maxAddress digits.toList).bind (sign.move? base) with
      | some address => .ok address
      | none => .error unusable

/-- The address that the operand of a directive denotes: a numeral stands for itself, all else
must be an expression with a symbol. -/
def evaluate (directive : Directive) (text : String) (symbols : SymbolTable) :
    Except Fault Nat :=
  let unusable := Fault.badOperand (.directive directive) text
  if Text.isNumeral text.toList then
    match Text.readNumeral? maxAddress text.toList with
    | some address => .ok address
    | none => .error unusable
  else
    match ofText? text with
    | some expression => expression.value symbols unusable
    | none => .error unusable

end Expression

end Assembler
