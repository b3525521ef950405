/-!
# Names

A name is a letter or an underscore followed by letters, digits and underscores, all of them
ASCII.  Names of symbols are compared as they stand; the words of the assembly language itself
are compared after `upperCase`, which changes ASCII letters only.

## Main definitions

* `isName` : texts that may name a symbol.
* `upperCase` : a word with its ASCII letters in upper case.
-/

namespace Assembler.Text

/-- Whether a character may begin a name. -/
def beginsName (c : Char) : Bool :=
  c.isAlpha || c == '_'

/-- Whether a character may stand inside a name. -/
def continuesName (c : Char) : Bool :=
  beginsName c || c.isDigit

/-- Whether a text may name a symbol. -/
def isName : List Char → Bool
  | [] => false
  | c :: rest => beginsName c && rest.all continuesName

/-- A word with its ASCII letters in upper case. -/
def upperCase (word : String) : String :=
  String.ofList (word.toList.map Char.toUpper)

end Assembler.Text
