import Assembler.Text.Line
import Mathlib.Data.List.Basic

/-!
# Lines that are written and read back

Rows that hold no line feed and do not end in a carriage return are the lines of the text in which
they are written one after the other.

When what stands between the line feeds of a text is changed piece by piece, the lines of the text
are changed line by line.

## Main definitions

* `Text.mapLines` : a text with every line changed.

## Main results

* `Text.lines_append` : the first line of a text.
* `Text.lines_ofLines` : rows are read back.
* `Text.forall₂_lines_mapLines` : the lines of a text with every line changed.
-/

namespace Assembler.Text

/-- What comes before the first line feed is a line, without the carriage return at its end. -/
theorem lines_append {row : List Char} (h : '\n' ∉ row) (rest : List Char) :
    lines (row ++ '\n' :: rest) = dropReturn row :: lines rest := by
  obtain ⟨piece, pieces, hpieces⟩ := List.exists_cons_of_ne_nil (List.splitOn_ne_nil '\n' rest)
  rw [lines, lines, List.splitOn_append_cons_self_of_not_mem h, hpieces]
  rfl

/-- Rows are read back as they were written. -/
theorem lines_ofLines {rows : List String}
    (h : ∀ row ∈ rows, '\n' ∉ row.toList ∧ row.toList.getLast? ≠ some '\r') :
    lines (ofLines rows).toList = rows.map String.toList := by
  induction rows with
  | nil => rfl
  | cons row rest ih =>
    obtain ⟨hfeed, hreturn⟩ := h row List.mem_cons_self
    have hrest := ih fun other hother => h other (List.mem_cons_of_mem _ hother)
    have htext : (ofLines (row :: rest)).toList = row.toList ++ '\n' :: (ofLines rest).toList := by
      simp [ofLines]
    rw [htext, lines_append hfeed, hrest, dropReturn, if_neg hreturn, List.map_cons]

/-! ### Changing lines -/

/-- A text with every line changed.  The line feeds stay. -/
def mapLines (change : List Char → List Char) (text : List Char) : List Char :=
  ['\n'].intercalate ((text.splitOn '\n').map change)

/-- No separator stands between separators. -/
theorem not_mem_of_mem_splitOn {separator : Char} {text piece : List Char}
    (h : piece ∈ text.splitOn separator) : separator ∉ piece := by
  induction text generalizing piece with
  | nil =>
    rw [List.splitOn_nil, List.mem_singleton] at h
    rw [h]
    exact List.not_mem_nil
  | cons c rest ih =>
    rw [List.splitOn_cons_eq_if_modifyHead] at h
    split_ifs at h with hc
    · rcases List.mem_cons.mp h with rfl | hrest
      · exact List.not_mem_nil
      · exact ih hrest
    · obtain ⟨first, others, hpieces⟩ :=
        List.exists_cons_of_ne_nil (List.splitOn_ne_nil separator rest)
      rw [hpieces] at h ih
      rw [List.modifyHead_cons] at h
      rcases List.mem_cons.mp h with rfl | hothers
      · have hne : c ≠ separator := by simpa using hc
        exact List.not_mem_cons_of_ne_of_not_mem hne.symm (ih List.mem_cons_self)
      · exact ih (List.mem_cons_of_mem _ hothers)

/-- Pieces that correspond are lines that correspond. -/
private theorem forall₂_linesOfPieces {change : List Char → List Char}
    {related : List Char → List Char → Prop} (hnil : ∀ piece, change piece = [] ↔ piece = [])
    (hlast : ∀ piece, related piece (change piece))
    (hline : ∀ piece, related (dropReturn piece) (dropReturn (change piece)))
    (pieces : List (List Char)) :
    List.Forall₂ related (linesOfPieces pieces) (linesOfPieces (pieces.map change)) := by
  induction pieces using linesOfPieces.induct with
  | case1 => exact .nil
  | case2 unended hempty =>
    obtain rfl : unended = [] := List.isEmpty_iff.mp hempty
    rw [List.map_singleton, (hnil []).mpr rfl]
    exact .nil
  | case3 unended hne =>
    have hchanged : ¬(change unended).isEmpty = true := by
      rw [List.isEmpty_iff, hnil, ← List.isEmpty_iff]
      exact hne
    rw [List.map_singleton, linesOfPieces, linesOfPieces, if_neg hne, if_neg hchanged]
    exact .cons (hlast unended) .nil
  | case4 line rest hrest ih =>
    obtain ⟨next, others, rfl⟩ := List.exists_cons_of_ne_nil hrest
    exact .cons (hline line) ih

/-- Changing every line of a text changes its lines one by one. -/
theorem forall₂_lines_mapLines {change : List Char → List Char}
    {related : List Char → List Char → Prop}
    (hfeed : ∀ piece, '\n' ∉ piece → '\n' ∉ change piece)
    (hnil : ∀ piece, change piece = [] ↔ piece = [])
    (hlast : ∀ piece, related piece (change piece))
    (hline : ∀ piece, related (dropReturn piece) (dropReturn (change piece)))
    (text : List Char) : List.Forall₂ related (lines text) (lines (mapLines change text)) := by
  have hpieces : ∀ piece ∈ (text.splitOn '\n').map change, '\n' ∉ piece := by
    intro piece hpiece
    obtain ⟨old, hold, rfl⟩ := List.mem_map.mp hpiece
    exact hfeed old (not_mem_of_mem_splitOn hold)
  have hne : (text.splitOn '\n').map change ≠ [] := by
    rw [Ne, List.map_eq_nil_iff]
    exact List.splitOn_ne_nil '\n' text
  rw [lines, lines, mapLines, List.splitOn_intercalate '\n' hpieces hne]
  exact forall₂_linesOfPieces hnil hlast hline _

end Assembler.Text
