/-!
# Blank characters

The characters that separate words in program text are those with the Unicode property
`White_Space`: twenty-five code points, listed here as ranges.  Two characters are easily
mistaken for members: U+200B and U+FEFF do not have the property, and they are ordinary
characters of a word.

## Main definitions

* `blankRanges`, `isBlank` : the table and membership in it.
* `trim` : a text without the blank characters at both its ends.
* `isBlankText` : texts that hold nothing but blank characters.
-/

namespace Assembler.Text

/-- The code points with the property `White_Space`, as inclusive ranges in order. -/
def blankRanges : List (Nat × Nat) :=
  [(0x09, 0x0d), (0x20, 0x20), (0x85, 0x85), (0xa0, 0xa0), (0x1680, 0x1680), (0x2000, 0x200a),
    (0x2028, 0x2029), (0x202f, 0x202f), (0x205f, 0x205f), (0x3000, 0x3000)]

/-- Whether a character is blank. -/
def isBlank (c : Char) : Bool :=
  blankRanges.any fun (first, last) => first ≤ c.toNat && c.toNat ≤ last

/-- A text without the blank characters in front of it. -/
def trimFront (text : List Char) : List Char :=
  text.dropWhile isBlank

/-- A text without the blank characters at both its ends. -/
def trim (text : List Char) : List Char :=
  (trimFront (trimFront text).reverse).reverse

/-- Whether a text holds nothing but blank characters. -/
def isBlankText (text : List Char) : Bool :=
  text.all isBlank

end Assembler.Text
