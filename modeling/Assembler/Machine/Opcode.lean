import Assembler.Machine.Vocabulary

/-!
# Operations, registers and branch conditions

The machine has eleven operations.  Four of its registers have names.  A branch carries its
condition in the place of the register.

## Main definitions

* `Opcode` : the operations, with codes from 0 to 10.
* `Register` : the named registers, with codes from 1 to 4.
* `Condition` : the branch conditions, with codes from 1 to 6.
-/

namespace Assembler

/-- An operation of the machine. -/
inductive Opcode
  | stop
  | add
  | sub
  | mult
  | mover
  | movem
  | comp
  | bc
  | div
  | read
  | print
  deriving DecidableEq, Repr

/-- A register that has a name. -/
inductive Register
  | areg
  | breg
  | creg
  | dreg
  deriving DecidableEq, Repr

/-- The condition under which a branch is taken. -/
inductive Condition
  | lt
  | le
  | eq
  | gt
  | ge
  | any
  deriving DecidableEq, Repr

/-- The name of an operation. -/
def Opcode.name : Opcode → String
  | stop => "STOP"
  | add => "ADD"
  | sub => "SUB"
  | mult => "MULT"
  | mover => "MOVER"
  | movem => "MOVEM"
  | comp => "COMP"
  | bc => "BC"
  | div => "DIV"
  | read => "READ"
  | print => "PRINT"

/-- The code of an operation in a machine word. -/
def Opcode.code : Opcode → Nat
  | stop => 0
  | add => 1
  | sub => 2
  | mult => 3
  | mover => 4
  | movem => 5
  | comp => 6
  | bc => 7
  | div => 8
  | read => 9
  | print => 10

/-- The name of a register. -/
def Register.name : Register → String
  | areg => "AREG"
  | breg => "BREG"
  | creg => "CREG"
  | dreg => "DREG"

/-- The number of a register. -/
def Register.code : Register → Nat
  | areg => 1
  | breg => 2
  | creg => 3
  | dreg => 4

/-- The name of a branch condition. -/
def Condition.name : Condition → String
  | lt => "LT"
  | le => "LE"
  | eq => "EQ"
  | gt => "GT"
  | ge => "GE"
  | any => "ANY"

/-- The number of a branch condition. -/
def Condition.code : Condition → Nat
  | lt => 1
  | le => 2
  | eq => 3
  | gt => 4
  | ge => 5
  | any => 6

/-- The operations form a vocabulary. -/
instance : Vocabulary Opcode where
  all := [.stop, .add, .sub, .mult, .mover, .movem, .comp, .bc, .div, .read, .print]
  name := Opcode.name
  code := Opcode.code

/-- The named registers form a vocabulary. -/
instance : Vocabulary Register where
  all := [.areg, .breg, .creg, .dreg]
  name := Register.name
  code := Register.code

/-- The branch conditions form a vocabulary. -/
instance : Vocabulary Condition where
  all := [.lt, .le, .eq, .gt, .ge, .any]
  name := Condition.name
  code := Condition.code

/-- The register field that an operand of `opcode` asks for: a branch condition where the
operation is a branch, else a register by name, by its one digit, or by its letter counted from
`A` as 1. -/
def Opcode.registerField? (opcode : Opcode) (operand : String) : Option Nat :=
  let condition? : Option Condition :=
    if opcode = .bc then Vocabulary.named? operand else none
  let register? : Option Register := Vocabulary.named? operand
  match condition?, register?, operand.toList with
  | some condition, _, _ => some condition.code
  | none, some register, _ => some register.code
  | none, none, [c] =>
    let ordinal := c.toUpper.toNat - 'A'.toNat + 1
    if c.isDigit then some (c.toNat - '0'.toNat)
    else if c.isAlpha && ordinal ≤ 9 then some ordinal
    else none
  | none, none, _ => none

end Assembler
