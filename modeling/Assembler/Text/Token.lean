import Assembler.Text.Blank

/-!
# Splitting a line into tokens

Blank characters and commas separate the words of a line.  A maximal run of separators counts
as one cut, so that `ADD AREG , X` and `ADD AREG,X` have the same words.

`pieces` keeps the empty piece that stands before a leading run or after a trailing one;
`tokens` drops those two, and what is left are the maximal separator-free runs of the line.

## Main definitions

* `isSeparator` : blank characters and the comma.
* `pieces` : what stands between the maximal runs of separators.
* `tokens` : the non-empty pieces.

## Main results

* `pieces_ne_nil` : there is always at least one piece.
* `mem_pieces_not_isSeparator` : no piece holds a separator.
-/

namespace Assembler.Text

/-- Whether a character separates words: a blank character or a comma. -/
def isSeparator (c : Char) : Bool :=
  isBlank c || c == ','

/-- Whether a text begins with a separator. -/
def beginsSeparated : List Char → Bool
  | [] => false
  | c :: _ => isSeparator c

/-- The pieces between the maximal runs of separators, empty pieces at the two ends included.
A separator cuts only where it is the last of its run. -/
def pieces : List Char → List (List Char)
  | [] => [[]]
  | c :: rest =>
    if isSeparator c then
      if beginsSeparated rest then pieces rest else [] :: pieces rest
    else
      (pieces rest).modifyHead (c :: ·)

/-- The words of a text: its non-empty pieces in order. -/
def tokens (text : List Char) : List (List Char) :=
  (pieces text).filter fun piece => !piece.isEmpty

/-- A text is cut into at least one piece. -/
theorem pieces_ne_nil (text : List Char) : pieces text ≠ [] := by
  induction text with
  | nil => simp [pieces]
  | cons c rest ih =>
    rw [pieces]
    split
    · split
      · exact ih
      · simp
    · cases h : pieces rest with
      | nil => exact absurd h ih
      | cons piece others => simp

/-- No piece holds a separator. -/
theorem mem_pieces_not_isSeparator {text piece : List Char} (hpiece : piece ∈ pieces text) :
    ∀ c ∈ piece, isSeparator c = false := by
  induction text generalizing piece with
  | nil =>
    simp only [pieces, List.mem_singleton] at hpiece
    simp [hpiece]
  | cons c rest ih =>
    rw [pieces] at hpiece
    split at hpiece
    · split at hpiece
      · exact ih hpiece
      · rcases List.mem_cons.1 hpiece with rfl | hrest
        · simp
        · exact ih hrest
    · rename_i hc
      cases h : pieces rest with
      | nil => simp [h] at hpiece
      | cons front others =>
        rw [h, List.modifyHead_cons] at hpiece
        rcases List.mem_cons.1 hpiece with rfl | hothers
        · intro d hd
          rcases List.mem_cons.1 hd with rfl | hfront
          · simpa using hc
          · exact ih (by simp [h]) d hfront
        · exact ih (by simp [h, hothers])

end Assembler.Text
