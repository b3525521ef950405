import Assembler.Proofs.Text.Line
import Assembler.Proofs.Text.Token
import Mathlib.Data.List.Forall2

/-!
# Rows and what they are made of

A printed row is made of cells with a blank between any two of them, or of groups of fields, each
group between parentheses and with commas between its fields.  Cells and fields that hold none of
these characters, and no line feed, are recovered from the rows by splitting them.

## Main definitions

* `ofCells`, `cells` : rows of cells, one a line, and the cells in the lines of a text.
* `ofGroups`, `groups` : a row of groups, and the groups in a row.
* `IsCell`, `IsField` : what can be split off again.

## Main results

* `cells_ofCells`, `groups_ofGroups` : cells and groups are recovered.
* `mapM_eq_some_iff`, `mapM_map_eq_some` : rows that are read one by one.
-/

namespace Assembler.Text

variable {row : List String} {rows : List (List String)}

/-! ### Cells -/

/-- Rows of cells, one a line, with a blank between the cells. -/
def ofCells (rows : List (List String)) : String :=
  ofLines (rows.map fun row => " ".intercalate row)

/-- The cells in the lines of a text. -/
def cells (text : String) : List (List String) :=
  (lines text.toList).map fun row => (row.splitOn ' ').map String.ofList

/-- Whether a cell holds no blank, no comma and no line end. -/
def IsCell (cell : String) : Prop :=
  ∀ c ∈ cell.toList, isSeparator c = false

theorem isCell_repr (n : Nat) : IsCell n.repr :=
  fun c hc => ((repr_word n).2 c hc).2

private theorem toList_intercalate_blank (row : List String) :
    (" ".intercalate row).toList = [' '].intercalate (row.map String.toList) :=
  String.toList_intercalate

/-- What stands in a row are its cells and the blanks between them. -/
theorem mem_intercalate {separator c : Char} {parts : List (List Char)}
    (h : c ∈ [separator].intercalate parts) : c = separator ∨ ∃ part ∈ parts, c ∈ part := by
  induction parts with
  | nil => cases h
  | cons part rest ih =>
    cases rest with
    | nil =>
      rw [List.intercalate_singleton] at h
      exact .inr ⟨part, List.mem_cons_self, h⟩
    | cons next others =>
      rw [List.intercalate_cons_cons, List.mem_append, List.mem_append, List.mem_singleton] at h
      obtain (hpart | hseparator) | hrest := h
      · exact .inr ⟨part, List.mem_cons_self, hpart⟩
      · exact .inl hseparator
      · rcases ih hrest with hseparator | ⟨other, hother, hmem⟩
        · exact .inl hseparator
        · exact .inr ⟨other, List.mem_cons_of_mem _ hother, hmem⟩

/-- A row is split at its blanks into its cells. -/
private theorem splitOn_intercalate_blank (hne : row ≠ []) (h : ∀ cell ∈ row, IsCell cell) :
    ((" ".intercalate row).toList.splitOn ' ').map String.ofList = row := by
  have hblank : ∀ cell ∈ row.map String.toList, ' ' ∉ cell := by
    intro cell hcell hmem
    obtain ⟨word, hword, rfl⟩ := List.mem_map.mp hcell
    exact absurd (h word hword ' ' hmem) (by decide)
  rw [toList_intercalate_blank, List.splitOn_intercalate ' ' hblank (by simpa using hne)]
  simp [Function.comp_def]

/-- A row of cells is one line. -/
theorem not_mem_intercalate_blank {c : Char} (hc : isSeparator c = true) (hne : c ≠ ' ')
    (h : ∀ cell ∈ row, IsCell cell) : c ∉ (" ".intercalate row).toList := by
  intro hmem
  rw [toList_intercalate_blank] at hmem
  rcases mem_intercalate hmem with hblank | ⟨part, hpart, hcell⟩
  · exact hne hblank
  · obtain ⟨cell, hrow, rfl⟩ := List.mem_map.mp hpart
    exact absurd hc (by simp [h cell hrow c hcell])

/-- Cells are recovered from their rows. -/
theorem cells_ofCells (h : ∀ row ∈ rows, row ≠ [] ∧ ∀ cell ∈ row, IsCell cell) :
    cells (ofCells rows) = rows := by
  have hrows : ∀ line ∈ rows.map fun row => " ".intercalate row,
      '\n' ∉ line.toList ∧ line.toList.getLast? ≠ some '\r' := by
    intro line hline
    obtain ⟨row, hrow, rfl⟩ := List.mem_map.mp hline
    refine ⟨not_mem_intercalate_blank (by decide) (by decide) (h row hrow).2, fun hlast => ?_⟩
    exact not_mem_intercalate_blank (by decide) (by decide) (h row hrow).2
      (List.mem_of_getLast? hlast)
  rw [cells, ofCells, lines_ofLines hrows, List.map_map, List.map_map]
  calc rows.map _ = rows.map id := List.map_congr_left fun row hrow =>
        splitOn_intercalate_blank (h row hrow).1 (h row hrow).2
    _ = rows := List.map_id rows

/-! ### Groups -/

/-- A row of groups, each between parentheses and with commas between its fields. -/
def ofGroups (groups : List (List String)) : String :=
  String.join (groups.map fun group => "(" ++ ",".intercalate group ++ ")")

/-- The groups in a row. -/
def groups (row : String) : List (List String) :=
  (row.toList.splitOn ')').dropLast.map fun group =>
    (group.tail.splitOn ',').map String.ofList

/-- Whether a field holds none of the characters that stand around fields, and no line end. -/
def IsField (field : String) : Prop :=
  ∀ c ∈ field.toList, c ∉ ['(', ')', ',', '\n', '\r']

private theorem toList_ofGroups_cons (group : List String) (rest : List (List String)) :
    (ofGroups (group :: rest)).toList =
      '(' :: [','].intercalate (group.map String.toList) ++ ')' :: (ofGroups rest).toList := by
  simp [ofGroups, String.toList_intercalate]

/-- What stands in a group are its fields and the commas between them. -/
theorem not_mem_intercalate_comma {group : List String} (h : ∀ field ∈ group, IsField field)
    {c : Char} (hc : c ∈ ['(', ')', '\n', '\r']) :
    c ∉ [','].intercalate (group.map String.toList) := by
  intro hmem
  rcases mem_intercalate hmem with rfl | ⟨part, hpart, hfield⟩
  · exact absurd hc (by decide)
  · obtain ⟨field, hgroup, rfl⟩ := List.mem_map.mp hpart
    have hnone := h field hgroup c hfield
    simp only [List.mem_cons, List.not_mem_nil, or_false, not_or] at hc hnone
    tauto

private theorem splitOn_intercalate_comma {group : List String} (hne : group ≠ [])
    (h : ∀ field ∈ group, IsField field) :
    ([','].intercalate (group.map String.toList)).splitOn ',' = group.map String.toList := by
  refine List.splitOn_intercalate ',' (fun part hpart hmem => ?_) (by simpa using hne)
  obtain ⟨field, hfield, rfl⟩ := List.mem_map.mp hpart
  exact h field hfield ',' hmem (by decide)

/-- Groups are recovered from their row. -/
theorem groups_ofGroups {parts : List (List String)}
    (h : ∀ group ∈ parts, group ≠ [] ∧ ∀ field ∈ group, IsField field) :
    groups (ofGroups parts) = parts := by
  induction parts with
  | nil => rfl
  | cons group rest ih =>
    obtain ⟨hne, hfields⟩ := h group List.mem_cons_self
    have hrest := ih fun other hother => h other (List.mem_cons_of_mem _ hother)
    have hclose : ')' ∉ '(' :: [','].intercalate (group.map String.toList) :=
      List.not_mem_cons_of_ne_of_not_mem (by decide) (not_mem_intercalate_comma hfields (by decide))
    have hmore : (ofGroups rest).toList.splitOn ')' ≠ [] := List.splitOn_ne_nil ')' _
    rw [groups, toList_ofGroups_cons, List.splitOn_append_cons_self_of_not_mem hclose,
      List.dropLast_cons_of_ne_nil hmore, List.map_cons, List.tail_cons,
      splitOn_intercalate_comma hne hfields]
    refine congr_arg₂ List.cons ?_ hrest
    simp [Function.comp_def]

/-- A row of groups is one line. -/
theorem not_mem_ofGroups {parts : List (List String)}
    (h : ∀ group ∈ parts, ∀ field ∈ group, IsField field) {c : Char} (hc : c ∈ ['\n', '\r']) :
    c ∉ (ofGroups parts).toList := by
  induction parts with
  | nil => exact List.not_mem_nil
  | cons group rest ih =>
    have hgroup : c ∉ [','].intercalate (group.map String.toList) :=
      not_mem_intercalate_comma (h group List.mem_cons_self) (by simp at hc ⊢; tauto)
    have hrest := ih fun other hother => h other (List.mem_cons_of_mem _ hother)
    have hopen : c ≠ '(' := by
      rintro rfl
      exact absurd hc (by decide)
    have hclose : c ≠ ')' := by
      rintro rfl
      exact absurd hc (by decide)
    rw [toList_ofGroups_cons]
    simp [hgroup, hrest, hopen, hclose]

/-! ### Rows one by one -/

/-- Rows are read when each of them is. -/
theorem mapM_eq_some_iff {α β : Type} {read : α → Option β} {written : List α} {values : List β} :
    written.mapM read = some values ↔
      List.Forall₂ (fun row value => read row = some value) written values := by
  induction written generalizing values with
  | nil => cases values <;> simp
  | cons row rest ih =>
    cases hrow : read row with
    | none => cases values <;> simp [List.mapM_cons, hrow]
    | some value =>
      cases hrest : rest.mapM read with
      | none => cases values <;> simp [List.mapM_cons, hrow, hrest, ← ih]
      | some others => cases values <;> simp [List.mapM_cons, hrow, hrest, ← ih]

/-- Values that are read back one by one are read back together. -/
theorem mapM_map_eq_some {α β : Type} {read : α → Option β} {write : β → α} {values : List β}
    (h : ∀ value ∈ values, read (write value) = some value) :
    (values.map write).mapM read = some values := by
  rw [mapM_eq_some_iff, List.forall₂_map_left_iff]
  exact List.forall₂_same.mpr h

end Assembler.Text
