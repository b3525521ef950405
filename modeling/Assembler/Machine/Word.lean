import Assembler.Machine.Opcode
import Assembler.Text.Numeral

/-!
# Machine words

A machine word has a sign, which is always `+`, two digits for the operation, one digit for the
register and three digits for the address.  A word that holds a constant has zeros in front of
it.  A value that does not fit its field is refused, so that every word prints in ten
characters.

Addresses of the assembler itself run further than a word can hold: they are the numbers up to
`maxAddress`, and only at the end, when a word is made, an address must fit three digits.

## Main definitions

* `maxAddress` : the largest address that the assembler counts up to.
* `Word` : a machine word, with bounds on its fields.
* `Word.instruction`, `Word.constant` : words from values that may be too large.
* `Word.text` : the ten characters of a word.
* `FieldOverflow.message` : what is said about a value that does not fit.
-/

namespace Assembler

/-- The largest address, and the largest number that a program may write. -/
def maxAddress : Nat := 4294967295

/-- The largest number that the register field holds. -/
def maxRegisterField : Nat := 9

/-- The largest number that the address field holds. -/
def maxAddressField : Nat := 999

/-- A machine word. -/
structure Word where
  /-- The code of the operation, 0 in front of a constant. -/
  operation : Nat
  /-- The register, 0 where there is none. -/
  register : Nat
  /-- The address, or the constant itself. -/
  address : Nat
  operation_lt : operation < 100
  register_le : register ≤ maxRegisterField
  address_le : address ≤ maxAddressField
  deriving DecidableEq, Repr

/-- What a value was meant to be when it did not fit. -/
inductive WordField
  | register
  | address
  | constant
  deriving DecidableEq, Repr

/-- A value that does not fit its field of a machine word. -/
structure FieldOverflow where
  field : WordField
  value : Nat
  deriving DecidableEq, Repr

/-- The name of a field. -/
def WordField.name : WordField → String
  | register => "register"
  | address => "address"
  | constant => "constant"

/-- The number of digits that a field has in a word. -/
def WordField.digits : WordField → Nat
  | register => 1
  | address => 3
  | constant => 3

/-- What is said about a value that does not fit. -/
def FieldOverflow.message (overflow : FieldOverflow) : String :=
  overflow.field.name ++ " " ++ overflow.value.repr ++ " does not fit in " ++
    overflow.field.digits.repr ++ " digit(s)"

/-- Codes of operations have at most two digits. -/
private theorem Opcode.code_lt (opcode : Opcode) : opcode.code < 100 := by
  cases opcode <;> decide

namespace Word

/-- The word of an instruction.  Of two fields that are too large the register is reported. -/
def instruction (opcode : Opcode) (register address : Nat) : Except FieldOverflow Word :=
  if hregister : register ≤ maxRegisterField then
    if haddress : address ≤ maxAddressField then
      .ok ⟨opcode.code, register, address, opcode.code_lt, hregister, haddress⟩
    else .error ⟨.address, address⟩
  else .error ⟨.register, register⟩

/-- The word that holds a constant. -/
def constant (value : Nat) : Except FieldOverflow Word :=
  if hvalue : value ≤ maxAddressField then
    .ok ⟨0, 0, value, by decide, by decide, hvalue⟩
  else .error ⟨.constant, value⟩

/-- The ten characters of a word. -/
def text (word : Word) : String :=
  "+ " ++ Text.padded 2 word.operation ++ " " ++ Text.padded 1 word.register ++ " " ++
    Text.padded 3 word.address

end Word

end Assembler
