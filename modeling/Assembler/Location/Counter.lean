import Assembler.Fault

/-!
# The location counter

The location counter is the address at which the next word will stand.  It counts up to
`maxAddress` and never wraps: words that would run past it are refused, and then the counter
stays where it was.

## Main definitions

* `Location.advance` : the counter after some words.
* `Location.reservation` : the number of words that a storage declaration asks for.
* `Location.reserve` : that number, and the counter after the words.

## Main results

* `Location.advance_eq_ok_iff` : the counter moves by exactly the words, if there is room.
* `Location.advance_eq_error_iff` : the only fault is that there is none.
-/

namespace Assembler.Location

/-- The counter after a number of words. -/
def advance (location words : Nat) : Except Fault Nat :=
  if location + words ≤ maxAddress then .ok (location + words)
  else .error (.locationOverflow location words)

/-- The counter moves by exactly the words, if there is room for them. -/
theorem advance_eq_ok_iff {location words next : Nat} :
    advance location words = .ok next ↔
      next = location + words ∧ location + words ≤ maxAddress := by
  unfold advance
  split
  · rename_i hroom
    simp only [Except.ok.injEq, hroom, and_true]
    exact eq_comm
  · rename_i hroom
    simp [hroom]

/-- The counter is refused exactly when there is no room for the words. -/
theorem advance_eq_error_iff {location words : Nat} {fault : Fault} :
    advance location words = .error fault ↔
      fault = .locationOverflow location words ∧ maxAddress < location + words := by
  unfold advance
  split
  · rename_i hroom
    simp [Nat.not_lt.2 hroom]
  · rename_i hroom
    simp only [Except.error.injEq, Nat.lt_of_not_le hroom, and_true]
    exact eq_comm

/-- The number of words that a storage declaration asks for: one, if it does not say. -/
def reservation (size? : Option String) : Except Fault Nat :=
  match size? with
  | none => .ok 1
  | some size =>
    match Text.readNumeral? maxAddress size.toList with
    | some words => .ok words
    | none => .error (.badOperand (.declaration .storage) size)

/-- The number of words that a storage declaration asks for, and the counter after them.  A
size that the counter has no room for is a fault of the operand. -/
def reserve (location : Nat) (size? : Option String) : Except Fault (Nat × Nat) :=
  match reservation size? with
  | .error fault => .error fault
  | .ok words =>
    match advance location words, size? with
    | .ok next, _ => .ok (words, next)
    | .error _, some size => .error (.badOperand (.declaration .storage) size)
    | .error fault, none => .error fault

end Assembler.Location
