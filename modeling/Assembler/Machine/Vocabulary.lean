import Assembler.Text.Name

/-!
# Vocabularies of coded words

The language has several small closed vocabularies: operations, registers, branch conditions,
directives, storage declarations.  Each word of such a vocabulary has a name, written in upper
case, and a numeric code.  Programs may write the name in any ASCII letter case.

## Main definitions

* `Vocabulary` : a finite type whose members have names and codes.
* `Vocabulary.named?` : the member with a given name, in any letter case.
* `Vocabulary.coded?` : the member with a given code.

## Main results

* `Vocabulary.name_of_named?` : a member is found only under its own name.
* `Vocabulary.code_of_coded?` : a member is found only under its own code.
-/

namespace Assembler

/-- A closed list of words, each with its name in upper case and its numeric code. -/
class Vocabulary (α : Type) where
  /-- All words, in the order of their codes. -/
  all : List α
  /-- The name of a word, in upper case. -/
  name : α → String
  /-- The number that stands for a word. -/
  code : α → Nat

namespace Vocabulary

variable {α : Type} [Vocabulary α]

/-- The word that a program spells `spelling`, in any ASCII letter case. -/
def named? (spelling : String) : Option α :=
  all.find? fun word => name word == Text.upperCase spelling

/-- The word with the code `number`. -/
def coded? (number : Nat) : Option α :=
  all.find? fun word => code word == number

/-- A word is found only under its own name. -/
theorem name_of_named? {spelling : String} {word : α} (h : named? spelling = some word) :
    name word = Text.upperCase spelling := by
  simpa using List.find?_some h

/-- A word is found only under its own code. -/
theorem code_of_coded? {number : Nat} {word : α} (h : coded? number = some word) :
    code word = number := by
  simpa using List.find?_some h

end Vocabulary

end Assembler
