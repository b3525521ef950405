import Mathlib.Data.List.Basic
import Mathlib.Data.List.Infix
import Mathlib.Data.List.Nodup

/-!
# Rows under keys

The tables of the assembler are lists of rows, and every row carries the key that it is found by.
Rows are known by their indices too, counted from 1, and the two ways to a row agree.  A row is
added behind the others, and only under a key that is not there yet, so keys and indices go on
agreeing while a table grows.

A map of rows that takes distinct keys to distinct keys goes through every operation: rows are
found under the new keys where they were found under the old.

## Main definitions

* `Keyed.index`, `Keyed.row?` : the index of a key, and the row at an index.
* `Keyed.addKey`, `Keyed.enter` : keys and rows with one more behind them, unless it is there.
* `Keyed.update` : rows of which those under a key are changed.
* `Keyed.indexed` : rows with their indices.

## Main results

* `Keyed.row?_index` : the row at the index of a key is the row under that key.
* `Keyed.index_eq_of_prefix`, `Keyed.index_addKey_self` : a key keeps its index.
* `Keyed.find?_enter`, `Keyed.find?_update` : rows by key after an operation.
* `Keyed.index_map`, `Keyed.find?_map`, `Keyed.enter_map`, `Keyed.update_map` : operations on mapped
  rows.
-/

namespace Assembler.Keyed

variable {α β κ ν : Type} [DecidableEq κ] [DecidableEq ν]

/-- The index of a key.  A key that is not there has the index that it would get by being added. -/
def index (keys : List κ) (k : κ) : Nat :=
  keys.idxOf k + 1

/-- The row at an index, counted from 1. -/
def row? (rows : List α) : Nat → Option α
  | 0 => none
  | position + 1 => rows[position]?

/-- Keys with one more behind them, unless it is among them. -/
def addKey (keys : List κ) (k : κ) : List κ :=
  if k ∈ keys then keys else keys ++ [k]

/-- Rows with one more behind them, unless there is one under its key. -/
def enter (key : α → κ) (rows : List α) (row : α) : List α :=
  if key row ∈ rows.map key then rows else rows ++ [row]

/-- Rows of which those under a key are changed. -/
def update (key : α → κ) (rows : List α) (k : κ) (change : α → α) : List α :=
  rows.map fun row => if key row = k then change row else row

/-- Rows with their indices. -/
def indexed (rows : List α) : List (Nat × α) :=
  (rows.zipIdx 1).map Prod.swap

/-! ### Keys -/

section

variable {keys : List κ} {k : κ}

/-- A key that is there keeps its index while keys are added behind. -/
theorem index_eq_of_prefix {new : List κ} (hkeys : keys <+: new) (hmem : k ∈ keys) :
    index new k = index keys k := by
  rw [index, index, hkeys.idxOf_eq_of_mem hmem]

theorem prefix_addKey (keys : List κ) (k : κ) : keys <+: addKey keys k := by
  rw [addKey]
  split_ifs
  · exact List.prefix_rfl
  · exact List.prefix_append _ _

theorem mem_addKey_self (keys : List κ) (k : κ) : k ∈ addKey keys k := by
  rw [addKey]
  split_ifs with h
  · exact h
  · exact List.mem_append_right _ (List.mem_singleton_self k)

/-- The only key that is added is that key. -/
theorem eq_of_mem_addKey {other : κ} (hmem : other ∈ addKey keys k) (hnew : other ∉ keys) :
    other = k := by
  rw [addKey] at hmem
  split_ifs at hmem
  · exact absurd hmem hnew
  · rcases List.mem_append.mp hmem with hold | hlast
    · exact absurd hold hnew
    · exact List.mem_singleton.mp hlast

/-- No key is added twice. -/
theorem nodup_addKey (h : keys.Nodup) (k : κ) : (addKey keys k).Nodup := by
  rw [addKey]
  split_ifs with hmem
  · exact h
  · exact List.nodup_append_comm.mp (List.nodup_cons.mpr ⟨hmem, h⟩)

/-- Where every key is kept once, one more is added behind the others, unless it is among them. -/
theorem eraseDups_concat (keys : List κ) (k : κ) :
    (keys ++ [k]).eraseDups = addKey keys.eraseDups k := by
  rw [List.eraseDups_append, addKey]
  simp only [List.mem_eraseDups]
  by_cases h : k ∈ keys
  · simp [List.removeAll, h]
  · simp [List.removeAll, h, List.eraseDups_cons]

/-- A key is added at the index that it would get. -/
theorem index_addKey_self (keys : List κ) (k : κ) : index (addKey keys k) k = index keys k := by
  by_cases hmem : k ∈ keys
  · rw [addKey, if_pos hmem]
  · rw [addKey, if_neg hmem, index, index, List.idxOf_append_of_notMem hmem,
      List.idxOf_cons_self, List.idxOf_eq_length hmem, Nat.add_zero]

/-- A key that is added keeps the index that it would get while keys are added behind. -/
theorem index_of_added {new : List κ} (h : addKey keys k <+: new) :
    k ∈ new ∧ index keys k = index new k := by
  have hadded := mem_addKey_self keys k
  exact ⟨h.subset hadded, by rw [← index_addKey_self keys k, index_eq_of_prefix h hadded]⟩

end

/-! ### Rows -/

section

variable {key : α → κ} {rows : List α} {row : α} {k : κ}

/-- There is a row under a key exactly when the key is there. -/
theorem isSome_find?_iff :
    (rows.find? fun row => key row == k).isSome ↔ k ∈ rows.map key := by
  simp

/-- The row under a key carries that key. -/
theorem key_of_find? (h : (rows.find? fun row => key row == k) = some row) : key row = k := by
  simpa using List.find?_some h

/-- Where no two rows carry one key, every row is the row under its key. -/
theorem find?_key_of_mem (hdistinct : (rows.map key).Nodup) (hmem : row ∈ rows) :
    (rows.find? fun other => key other == key row) = some row := by
  obtain ⟨other, hother⟩ :=
    Option.isSome_iff_exists.mp (isSome_find?_iff.mpr (List.mem_map_of_mem (f := key) hmem))
  rw [hother, List.inj_on_of_nodup_map hdistinct (List.mem_of_find?_eq_some hother) hmem
    (key_of_find? hother)]

/-- The row at the index of a key is the row under that key. -/
theorem row?_index (key : α → κ) (rows : List α) (k : κ) :
    row? rows (index (rows.map key) k) = rows.find? fun row => key row == k := by
  rw [index, row?, List.idxOf, List.findIdx_map, List.find?_eq_getElem?_findIdx]
  rfl

/-- Rows are counted from 1. -/
theorem isSome_row?_iff (rows : List α) (position : Nat) :
    (row? rows position).isSome ↔ 1 ≤ position ∧ position ≤ rows.length := by
  cases position with
  | zero => simp [row?]
  | succ place =>
    have hrow : (row? rows (place + 1)).isSome ↔ place < rows.length := by simp [row?]
    rw [hrow]
    omega

theorem mem_of_row? {position : Nat} (h : row? rows position = some row) : row ∈ rows := by
  cases position with
  | zero => cases h
  | succ place => exact List.mem_of_getElem? h

/-- Entering a row leaves the rows that are there as they are. -/
theorem row?_enter {position : Nat} (new : α) (h : row? rows position = some row) :
    row? (enter key rows new) position = some row := by
  cases position with
  | zero => cases h
  | succ place =>
    rw [enter]
    split_ifs
    · exact h
    · exact (List.getElem?_append_left (List.getElem?_eq_some_iff.mp h).1).trans h

/-- After a row is entered there is one under its key, which is the new one if there was none. -/
theorem find?_enter (key : α → κ) (rows : List α) (new : α) (k : κ) :
    ((enter key rows new).find? fun row => key row == k) =
      if k = key new then some ((rows.find? fun row => key row == key new).getD new)
      else rows.find? fun row => key row == k := by
  by_cases hmem : key new ∈ rows.map key
  · obtain ⟨row, hrow⟩ := Option.isSome_iff_exists.mp (isSome_find?_iff.mpr hmem)
    rw [enter, if_pos hmem, hrow, Option.getD_some]
    split_ifs with h
    · rw [h, hrow]
    · rfl
  · have hnone : (rows.find? fun row => key row == key new) = none := by
      rwa [← Option.not_isSome_iff_eq_none, isSome_find?_iff]
    rw [enter, if_neg hmem, List.find?_append, hnone, Option.getD_none, List.find?_singleton]
    by_cases h : k = key new
    · subst h
      rw [if_pos rfl, hnone, Option.none_or, if_pos (beq_self_eq_true _)]
    · rw [if_neg h, if_neg (by simpa using Ne.symm h), Option.or_none]

theorem row?_update (key : α → κ) (rows : List α) (k : κ) (change : α → α) (position : Nat) :
    row? (update key rows k change) position =
      (row? rows position).map fun row => if key row = k then change row else row := by
  cases position with
  | zero => rfl
  | succ place => exact List.getElem?_map

/-- A change that keeps keys is seen in the row under its key only. -/
theorem find?_update (rows : List α) (k other : κ) {change : α → α}
    (hchange : ∀ row, key (change row) = key row) :
    ((update key rows k change).find? fun row => key row == other) =
      if other = k then (rows.find? fun row => key row == other).map change
      else rows.find? fun row => key row == other := by
  have hkey : ((fun row => key row == other) ∘ fun row => if key row = k then change row else row) =
      fun row => key row == other := by
    funext row
    rw [Function.comp_apply, apply_ite key, hchange, ite_self]
  rw [update, List.find?_map, hkey]
  cases hfind : rows.find? fun row => key row == other with
  | none => simp
  | some row =>
    simp only [Option.map_some, key_of_find? hfind]
    split_ifs <;> rfl

theorem map_fst_indexed (rows : List α) :
    (indexed rows).map Prod.fst = List.range' 1 rows.length := by
  rw [indexed, List.map_map]
  exact List.zipIdx_map_snd 1 rows

private theorem map_snd_indexed (rows : List α) : (indexed rows).map Prod.snd = rows := by
  rw [indexed, List.map_map]
  exact List.zipIdx_map_fst 1 rows

theorem mem_of_mem_indexed {entry : Nat × α} (h : entry ∈ indexed rows) : entry.2 ∈ rows := by
  rw [← map_snd_indexed rows]
  exact List.mem_map_of_mem h

/-- Rows are known from what they are with their indices. -/
theorem indexed_injective : Function.Injective (indexed (α := α)) := by
  intro first second h
  rw [← map_snd_indexed first, h, map_snd_indexed]

end

/-! ### Mapped rows -/

section

theorem row?_map (g : α → β) (rows : List α) (position : Nat) :
    row? (rows.map g) position = (row? rows position).map g := by
  cases position with
  | zero => rfl
  | succ place => exact List.getElem?_map

variable {f : κ → ν} (hf : Function.Injective f)

include hf in
/-- Distinct new keys are told apart where the old ones are. -/
theorem index_map (keys : List κ) (k : κ) : index (keys.map f) (f k) = index keys k := by
  have hsame : ((· == f k) ∘ f) = fun other => other == k := funext fun _ => hf.beq_eq
  rw [index, index, List.idxOf, List.findIdx_map, hsame]
  rfl

variable (key : α → κ) (newKey : β → ν) {g : α → β} (hkey : ∀ row, newKey (g row) = f (key row))

include hf hkey in
theorem find?_map (rows : List α) (k : κ) :
    ((rows.map g).find? fun row => newKey row == f k) =
      (rows.find? fun row => key row == k).map g := by
  have hsame : ((fun row => newKey row == f k) ∘ g) = fun row => key row == k := by
    funext row
    rw [Function.comp_apply, hkey, hf.beq_eq]
  rw [List.find?_map, hsame]

include hf hkey in
theorem enter_map (rows : List α) (row : α) :
    enter newKey (rows.map g) (g row) = (enter key rows row).map g := by
  have hkeys : (rows.map g).map newKey = (rows.map key).map f := by
    simp only [List.map_map]
    exact List.map_congr_left fun row _ => hkey row
  rw [enter, enter, hkeys, hkey]
  simp only [List.mem_map_of_injective hf]
  split_ifs
  · rfl
  · rw [List.map_append, List.map_singleton]

include hf hkey in
theorem update_map (rows : List α) (k : κ) {change : α → α} {newChange : β → β}
    (hchange : ∀ row, newChange (g row) = g (change row)) :
    update newKey (rows.map g) (f k) newChange = (update key rows k change).map g := by
  simp only [update, List.map_map]
  apply List.map_congr_left
  intro row _
  simp only [Function.comp_apply, hkey, hf.eq_iff, hchange, apply_ite g]

end

end Assembler.Keyed
