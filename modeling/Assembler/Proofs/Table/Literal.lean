import Assembler.Proofs.Table.Keyed
import Assembler.Table.Literal

/-!
# Rows of the literal table

A literal is placed or it waits, and in an orderly table the placed ones are exactly those before
the open pool.  In such a table it makes no difference how many placed literals a placement skips:
the whole table after it is known in closed form, and it is orderly again.

## Main definitions

* `LiteralTable.Orderly` : distinct texts, of which exactly those before the mark have addresses.
* `LiteralTable.placeRest` : the table in which all waiting literals have consecutive addresses.

## Main results

* `LiteralTable.Orderly.placeAfter_eq` : what a placement does to an orderly table.
* `LiteralTable.Orderly.intern`, `LiteralTable.Orderly.placeRest` : tables stay orderly.
* `LiteralTable.get?_index`, `LiteralTable.get?_intern`, `LiteralTable.get?_placeRest` : rows by
  index.
-/

namespace Assembler

namespace Literal

/-- Literals with consecutive addresses from `address` on. -/
def placedAt (address : Nat) (literals : List Literal) : List Literal :=
  (literals.zipIdx address).map fun (literal, place) => { literal with address := some place }

@[simp]
theorem length_placedAt (address : Nat) (literals : List Literal) :
    (placedAt address literals).length = literals.length := by
  simp [placedAt]

private theorem getElem?_placedAt (address : Nat) (literals : List Literal) (position : Nat) :
    (placedAt address literals)[position]? = literals[position]?.map fun literal =>
      { literal with address := some (address + position) } := by
  simp [placedAt, Function.comp_def]

@[simp]
theorem map_text_placedAt (address : Nat) (literals : List Literal) :
    (placedAt address literals).map text = literals.map text := by
  apply List.ext_getElem?
  intro position
  simp [getElem?_placedAt, Function.comp_def]

private theorem isSome_address_of_mem_placedAt {address : Nat} {literals : List Literal}
    {literal : Literal} (h : literal ∈ placedAt address literals) : literal.address.isSome := by
  obtain ⟨⟨_, place⟩, -, rfl⟩ := List.mem_map.mp h
  rfl

/-- Literals that all wait get consecutive addresses. -/
private theorem placeFrom_of_waiting {literals : List Literal}
    (h : ∀ literal ∈ literals, literal.address = none) (address : Nat) :
    placeFrom address literals = placedAt address literals := by
  induction literals generalizing address with
  | nil => rfl
  | cons literal rest ih =>
    have hhead : literal.address = none := h literal List.mem_cons_self
    have htail := ih (fun other hother => h other (List.mem_cons_of_mem _ hother)) (address + 1)
    simp only [placeFrom, hhead, htail, placedAt, List.zipIdx_cons, List.map_cons]

/-- Literals that are placed keep their places and use up no address. -/
private theorem placeFrom_append_of_placed {placed : List Literal}
    (h : ∀ literal ∈ placed, literal.address.isSome) (address : Nat) (rest : List Literal) :
    placeFrom address (placed ++ rest) = placed ++ placeFrom address rest := by
  induction placed with
  | nil => rfl
  | cons literal others ih =>
    obtain ⟨place, hplace⟩ := Option.isSome_iff_exists.mp (h literal List.mem_cons_self)
    have htail := ih fun other hother => h other (List.mem_cons_of_mem _ hother)
    simp only [List.cons_append, placeFrom, hplace, htail]

/-- Among literals with distinct texts, a text has the address at which it is placed. -/
private theorem address_of_find? {literals : List Literal} (hdistinct : (literals.map text).Nodup)
    (wanted : String) :
    (literals.find? fun literal => literal.text == wanted).bind address =
      (literals.filterMap fun literal =>
        literal.address.map fun place => (literal.text, place)).lookup wanted := by
  induction literals with
  | nil => rfl
  | cons literal rest ih =>
    obtain ⟨hfresh, hrest⟩ := List.nodup_cons.mp hdistinct
    have htail := ih hrest
    by_cases htext : literal.text = wanted
    · rw [List.find?_cons_of_pos (by simpa using htext), List.filterMap_cons]
      cases hplace : literal.address with
      | none =>
        -- the text stands nowhere else in the list
        have hnone : (rest.find? fun other => other.text == wanted) = none := by
          rw [List.find?_eq_none]
          intro other hother
          have hne : other.text ≠ wanted := by
            intro heq
            rw [htext, ← heq] at hfresh
            exact hfresh (List.mem_map_of_mem hother)
          simpa using hne
        rw [hnone] at htail
        rw [Option.bind_some, hplace]
        exact htail
      | some place =>
        rw [Option.bind_some, hplace, Option.map_some, htext, List.lookup_cons_self]
    · rw [List.find?_cons_of_neg (by simpa using htext), List.filterMap_cons]
      cases literal.address with
      | none => exact htail
      | some place =>
        rw [Option.map_some, List.lookup_cons, beq_eq_false_iff_ne.mpr (Ne.symm htext)]
        exact htail

end Literal

namespace LiteralTable

/-! ### Literals as keyed rows -/

theorem get?_eq_row? (table : LiteralTable) (position : Nat) :
    table.get? position = Keyed.row? table.literals position := by
  cases position <;> rfl

private theorem literals_intern (table : LiteralTable) (text : String) :
    (table.intern text).2.literals = Keyed.enter Literal.text table.literals ⟨text, none⟩ :=
  apply_ite literals _ _ _

/-- The row at the index of a text is the row of that text. -/
theorem get?_index (table : LiteralTable) (text : String) :
    table.get? (table.index text) = table.find? text :=
  Keyed.row?_index Literal.text table.literals text

/-- A text has a row exactly when it is in the table. -/
theorem find?_isSome_iff {table : LiteralTable} {text : String} :
    (table.find? text).isSome ↔ text ∈ table.texts :=
  Keyed.isSome_find?_iff

/-- The row of a text carries that text. -/
theorem text_of_find? {table : LiteralTable} {text : String} {literal : Literal}
    (h : table.find? text = some literal) : literal.text = text :=
  Keyed.key_of_find? h

/-- Where no text has two rows, every row is the row of its text. -/
private theorem find?_text_of_mem {table : LiteralTable} (hdistinct : table.texts.Nodup)
    {literal : Literal} (hmem : literal ∈ table.literals) :
    table.find? literal.text = some literal :=
  Keyed.find?_key_of_mem hdistinct hmem

/-- Rows are counted from 1. -/
theorem get?_isSome_iff (table : LiteralTable) (position : Nat) :
    (table.get? position).isSome ↔ 1 ≤ position ∧ position ≤ table.size := by
  rw [get?_eq_row?]
  exact Keyed.isSome_row?_iff table.literals position

theorem text_mem_of_get? {table : LiteralTable} {position : Nat} {literal : Literal}
    (h : table.get? position = some literal) : literal.text ∈ table.texts := by
  rw [get?_eq_row?] at h
  exact List.mem_map_of_mem (Keyed.mem_of_row? h)

/-- A text that is in the table keeps its index while texts are added behind. -/
theorem index_eq_of_prefix {old new : LiteralTable} {text : String}
    (htexts : old.texts <+: new.texts) (hmem : text ∈ old.texts) :
    new.index text = old.index text :=
  Keyed.index_eq_of_prefix htexts hmem

/-! ### Using a literal -/

/-- The texts with one more among them. -/
theorem texts_intern_eq_addKey (table : LiteralTable) (text : String) :
    (table.intern text).2.texts = Keyed.addKey table.texts text :=
  texts_intern table text

/-- Using a literal adds its text behind the others, if at all. -/
theorem texts_prefix_intern (table : LiteralTable) (text : String) :
    table.texts <+: (table.intern text).2.texts := by
  rw [texts_intern_eq_addKey]
  exact Keyed.prefix_addKey table.texts text

/-- A literal that is used is in the table from then on. -/
theorem mem_texts_intern_self (table : LiteralTable) (text : String) :
    text ∈ (table.intern text).2.texts := by
  rw [texts_intern_eq_addKey]
  exact Keyed.mem_addKey_self table.texts text

/-- The index that using a literal reports is its index in the new table. -/
theorem index_intern_self (table : LiteralTable) (text : String) :
    (table.intern text).2.index text = (table.intern text).1 := by
  rw [index, texts_intern_eq_addKey]
  exact Keyed.index_addKey_self table.texts text

/-- A literal that is used keeps the index that was reported while texts are added behind. -/
theorem index_of_interned {old new : LiteralTable} {text : String}
    (h : (old.intern text).2.texts <+: new.texts) :
    text ∈ new.texts ∧ (old.intern text).1 = new.index text := by
  rw [texts_intern_eq_addKey] at h
  exact Keyed.index_of_added h

/-- Using a literal leaves the rows that are there as they are. -/
theorem get?_intern {table : LiteralTable} {index : Nat} {literal : Literal} (text : String)
    (h : table.get? index = some literal) :
    (table.intern text).2.get? index = some literal := by
  rw [get?_eq_row?] at h ⊢
  rw [literals_intern]
  exact Keyed.row?_enter _ h

/-! ### Orderly tables -/

/-- The texts of a table are distinct, and exactly those before the mark have addresses. -/
structure Orderly (table : LiteralTable) : Prop where
  distinct : table.texts.Nodup
  mark_le : table.mark ≤ table.size
  placed : ∀ literal ∈ table.literals.take table.mark, literal.address.isSome
  waiting : ∀ literal ∈ table.literals.drop table.mark, literal.address = none

/-- The number of literals in the open pool. -/
def openSize (table : LiteralTable) : Nat :=
  table.size - table.mark

/-- The table in which the literals of the open pool stand from `address` on. -/
def placeRest (table : LiteralTable) (address : Nat) : LiteralTable where
  literals := table.literals.take table.mark ++
    Literal.placedAt address (table.literals.drop table.mark)
  pools := table.pools ++ if table.openSize = 0 then [] else [table.mark + 1]
  mark := table.size

theorem orderly_empty : Orderly {} where
  distinct := List.nodup_nil
  mark_le := Nat.le_refl 0
  placed := by simp
  waiting := by simp

theorem texts_placeRest (table : LiteralTable) (address : Nat) :
    (table.placeRest address).texts = table.texts := by
  simp only [texts, placeRest, List.map_append, Literal.map_text_placedAt]
  rw [← List.map_append, List.take_append_drop]

theorem length_placeRest {table : LiteralTable} (hmark : table.mark ≤ table.size)
    (address : Nat) : (table.placeRest address).literals.length = table.literals.length := by
  rw [size] at hmark
  simp only [placeRest, List.length_append, Literal.length_placedAt,
    List.length_take_of_le hmark, List.length_drop]
  omega

/-- After the open pool has been placed no literal waits. -/
theorem openSize_placeRest {table : LiteralTable} (hmark : table.mark ≤ table.size)
    (address : Nat) : (table.placeRest address).openSize = 0 := by
  rw [openSize, size, length_placeRest hmark]
  exact Nat.sub_self _

/-- Placing an empty pool leaves the table as it is. -/
theorem placeRest_of_openSize_eq_zero {table : LiteralTable} (hmark : table.mark ≤ table.size)
    (hopen : table.openSize = 0) (address : Nat) : table.placeRest address = table := by
  obtain ⟨literals, pools, mark⟩ := table
  obtain rfl : mark = literals.length :=
    Nat.le_antisymm hmark (Nat.sub_eq_zero_iff_le.mp hopen)
  simp [placeRest, openSize, size, Literal.placedAt]

/-- Rows before the mark stay, and the others get consecutive addresses. -/
theorem get?_placeRest {table : LiteralTable} (hmark : table.mark ≤ table.size)
    (address index : Nat) :
    (table.placeRest address).get? index =
      if index ≤ table.mark then table.get? index
      else (table.get? index).map fun literal =>
        { literal with address := some (address + (index - (table.mark + 1))) } := by
  cases index with
  | zero => simp [get?]
  | succ position =>
    have htake : (table.literals.take table.mark).length = table.mark :=
      List.length_take_of_le hmark
    simp only [get?, placeRest]
    split_ifs with h
    · have hlt : position < table.mark := h
      rw [List.getElem?_append_left (by omega), List.getElem?_take_of_lt hlt]
    · have hle : table.mark ≤ position := by omega
      rw [List.getElem?_append_right (by omega), htake, Literal.getElem?_placedAt,
        List.getElem?_drop, Nat.add_sub_cancel' hle, Nat.add_sub_add_right]

namespace Orderly

variable {table : LiteralTable}

/-- A row has an address exactly when its index is not above the mark. -/
theorem isSome_address_iff (h : table.Orderly) {index : Nat} {literal : Literal}
    (hget : table.get? index = some literal) :
    literal.address.isSome ↔ index ≤ table.mark := by
  cases index with
  | zero => exact absurd hget (by simp [get?])
  | succ position =>
    simp only [get?] at hget
    constructor
    · intro hsome
      by_contra hlt
      have hmem : literal ∈ table.literals.drop table.mark := by
        apply List.mem_of_getElem? (i := position - table.mark)
        rw [List.getElem?_drop, Nat.add_sub_cancel' (by omega), hget]
      rw [h.waiting literal hmem] at hsome
      exact absurd hsome (by simp)
    · intro hle
      apply h.placed literal
      apply List.mem_of_getElem? (i := position)
      rw [List.getElem?_take_of_lt hle, hget]

/-- A table stays orderly when a literal is used. -/
theorem intern (h : table.Orderly) (text : String) : (table.intern text).2.Orderly := by
  have hdistinct : (table.intern text).2.texts.Nodup := by
    rw [texts_intern_eq_addKey]
    exact Keyed.nodup_addKey h.distinct text
  by_cases hmem : text ∈ table.texts
  · simpa only [LiteralTable.intern, if_pos hmem] using h
  · simp only [LiteralTable.intern, if_neg hmem] at hdistinct ⊢
    refine ⟨hdistinct, ?_, ?_, ?_⟩
    · have hmark := h.mark_le
      simp only [size, List.length_append] at hmark ⊢
      omega
    · intro literal hliteral
      rw [List.take_append_of_le_length h.mark_le] at hliteral
      exact h.placed literal hliteral
    · intro literal hliteral
      rw [List.drop_append_of_le_length h.mark_le] at hliteral
      rcases List.mem_append.mp hliteral with hold | hlast
      · exact h.waiting literal hold
      · rw [List.mem_singleton.mp hlast]

/-- A table is orderly after its open pool has been placed. -/
theorem placeRest (h : table.Orderly) (address : Nat) : (table.placeRest address).Orderly := by
  have hlength := length_placeRest h.mark_le address
  have hmark : (table.placeRest address).mark = (table.placeRest address).literals.length :=
    hlength.symm
  refine ⟨?_, Nat.le_of_eq hmark, ?_, ?_⟩
  · rw [texts_placeRest]
    exact h.distinct
  · intro literal hliteral
    rw [hmark, List.take_length] at hliteral
    rcases List.mem_append.mp hliteral with hold | hnew
    · exact h.placed literal hold
    · exact Literal.isSome_address_of_mem_placedAt hnew
  · intro literal hliteral
    rw [hmark, List.drop_length] at hliteral
    exact absurd hliteral List.not_mem_nil

/-- Skipping literals that are placed leaves the others, behind the placed ones that are left. -/
private theorem drop_eq (h : table.Orderly) {skipped : Nat} (hskipped : skipped ≤ table.mark) :
    table.literals.drop skipped =
      (table.literals.take table.mark).drop skipped ++ table.literals.drop table.mark := by
  have hlength : skipped ≤ (table.literals.take table.mark).length := by
    rwa [List.length_take_of_le h.mark_le]
  rw [← List.drop_append_of_le_length hlength, List.take_append_drop]

private theorem isSome_of_mem_drop_take (h : table.Orderly) (skipped : Nat) :
    ∀ literal ∈ (table.literals.take table.mark).drop skipped, literal.address.isSome :=
  fun literal hliteral => h.placed literal (List.mem_of_mem_drop hliteral)

/-- The literals that wait are those of the open pool. -/
theorem waiting_eq (h : table.Orderly) {skipped : Nat} (hskipped : skipped ≤ table.mark) :
    LiteralTable.waiting table skipped = table.openSize := by
  have hplaced : ((table.literals.take table.mark).drop skipped).countP
      (fun literal => literal.address.isNone) = 0 := by
    rw [List.countP_eq_zero]
    intro literal hliteral
    simpa [← Option.isSome_iff_ne_none] using h.isSome_of_mem_drop_take skipped literal hliteral
  have hwaiting : (table.literals.drop table.mark).countP
      (fun literal => literal.address.isNone) = (table.literals.drop table.mark).length := by
    rw [List.countP_eq_length]
    intro literal hliteral
    simp [h.waiting literal hliteral]
  rw [LiteralTable.waiting, h.drop_eq hskipped, List.countP_append, hplaced, hwaiting,
    Nat.zero_add, List.length_drop, openSize, size]

/-- The first literal that waits is the first of the open pool. -/
private theorem firstWaiting?_eq (h : table.Orderly) {skipped : Nat}
    (hskipped : skipped ≤ table.mark) :
    table.firstWaiting? skipped = if table.openSize = 0 then none else some (table.mark + 1) := by
  have hplaced : ((table.literals.take table.mark).drop skipped).findIdx?
      (fun literal => literal.address.isNone) = none := by
    rw [List.findIdx?_eq_none_iff]
    intro literal hliteral
    simpa [← Option.isSome_iff_ne_none] using h.isSome_of_mem_drop_take skipped literal hliteral
  have hlength : ((table.literals.take table.mark).drop skipped).length =
      table.mark - skipped := by
    rw [List.length_drop, List.length_take_of_le h.mark_le]
  have hsize : (table.literals.drop table.mark).length = table.openSize := List.length_drop
  rw [firstWaiting?, h.drop_eq hskipped, List.findIdx?_append, hplaced, Option.none_or, hlength]
  cases hrest : table.literals.drop table.mark with
  | nil =>
    have hzero : table.openSize = 0 := by rw [← hsize, hrest, List.length_nil]
    rw [if_pos hzero]
    rfl
  | cons literal rest =>
    have hhead : literal.address = none := by
      apply h.waiting literal
      rw [hrest]
      exact List.mem_cons_self
    have hne : table.openSize ≠ 0 := by
      rw [← hsize, hrest]
      exact Nat.succ_ne_zero _
    rw [if_neg hne, List.findIdx?_cons]
    simp only [hhead, Option.isNone_none, if_true, Option.map_some, Option.some.injEq]
    omega

/-- What a placement does to an orderly table: it is all the same how many of the placed
literals it skips. -/
theorem placeAfter_eq (h : table.Orderly) {skipped : Nat} (hskipped : skipped ≤ table.mark)
    (address : Nat) :
    table.placeAfter skipped address =
      if address + table.openSize ≤ maxAddress then
        .ok (table.openSize, table.placeRest address)
      else .error (.locationOverflow address table.openSize) := by
  have htake : table.literals.take skipped ++
      (table.literals.take table.mark).drop skipped = table.literals.take table.mark := by
    have hskip : table.literals.take skipped =
        (table.literals.take table.mark).take skipped := by
      rw [List.take_take, Nat.min_eq_left hskipped]
    rw [hskip, List.take_append_drop]
  have hliterals : table.literals.take skipped ++
      Literal.placeFrom address (table.literals.drop skipped) =
        table.literals.take table.mark ++
          Literal.placedAt address (table.literals.drop table.mark) := by
    rw [h.drop_eq hskipped, Literal.placeFrom_append_of_placed (h.isSome_of_mem_drop_take skipped),
      Literal.placeFrom_of_waiting h.waiting, ← List.append_assoc, htake]
  have hpools : (table.firstWaiting? skipped).toList =
      if table.openSize = 0 then [] else [table.mark + 1] := by
    rw [h.firstWaiting?_eq hskipped]
    split_ifs <;> rfl
  rw [placeAfter, h.waiting_eq hskipped, hliterals, hpools]
  rfl

end Orderly

/-! ### Placements -/

/-- The placed literals in order, each text with its address. -/
def placements (table : LiteralTable) : List (String × Nat) :=
  table.literals.filterMap fun literal => literal.address.map fun place => (literal.text, place)

/-- The texts of the literals that wait, in order. -/
def waitingTexts (table : LiteralTable) : List String :=
  (table.literals.filter (·.address.isNone)).map Literal.text

/-- The address of a text. -/
def addressOf? (table : LiteralTable) (text : String) : Option Nat :=
  (table.find? text).bind Literal.address

/-- Using a literal places nothing. -/
theorem placements_intern (table : LiteralTable) (text : String) :
    (table.intern text).2.placements = table.placements := by
  rw [placements, intern]
  split_ifs
  · rfl
  · rw [List.filterMap_append, placements]
    exact List.append_nil _

/-- The placed texts are among the texts of the table, in the same order. -/
private theorem placements_sublist_texts (table : LiteralTable) :
    (table.placements.map Prod.fst).Sublist table.texts := by
  rw [placements, texts]
  induction table.literals with
  | nil => exact List.Sublist.slnil
  | cons literal rest ih =>
    rw [List.filterMap_cons]
    cases literal.address with
    | none => exact ih.cons _
    | some place => exact ih.cons_cons _

namespace Orderly

variable {table : LiteralTable}

/-- No literal is placed twice. -/
theorem placements_nodup (h : table.Orderly) : (table.placements.map Prod.fst).Nodup :=
  h.distinct.sublist table.placements_sublist_texts

/-- A text has the address at which it is placed. -/
theorem addressOf?_eq_lookup (h : table.Orderly) (text : String) :
    table.addressOf? text = table.placements.lookup text :=
  Literal.address_of_find? h.distinct text

/-- A literal that is placed has the address at which it is. -/
theorem addressOf?_of_mem_placements (h : table.Orderly) {text : String} {address : Nat}
    (hmem : (text, address) ∈ table.placements) : table.addressOf? text = some address := by
  obtain ⟨literal, hliteral, hplace⟩ := List.mem_filterMap.mp hmem
  obtain ⟨place, haddress, hpair⟩ := Option.map_eq_some_iff.mp hplace
  obtain ⟨rfl, rfl⟩ := Prod.mk.inj hpair
  rw [addressOf?, find?_text_of_mem h.distinct hliteral, Option.bind_some, haddress]

/-- The literals that wait are those behind the mark. -/
theorem waitingTexts_eq (h : table.Orderly) :
    table.waitingTexts = (table.literals.drop table.mark).map Literal.text := by
  have hplaced : (table.literals.take table.mark).filter (·.address.isNone) = [] := by
    rw [List.filter_eq_nil_iff]
    intro literal hliteral
    simpa [← Option.isSome_iff_ne_none] using h.placed literal hliteral
  have hwaiting : (table.literals.drop table.mark).filter (·.address.isNone) =
      table.literals.drop table.mark := by
    rw [List.filter_eq_self]
    intro literal hliteral
    rw [h.waiting literal hliteral]
    rfl
  have hsplit : table.literals.filter (·.address.isNone) =
      (table.literals.take table.mark ++ table.literals.drop table.mark).filter
        (·.address.isNone) := by
    rw [List.take_append_drop]
  rw [waitingTexts, hsplit, List.filter_append, hplaced, hwaiting, List.nil_append]

theorem length_waitingTexts (h : table.Orderly) :
    table.waitingTexts.length = table.openSize := by
  rw [h.waitingTexts_eq, List.length_map, List.length_drop]
  rfl

/-- Placing the open pool places the literals that wait, behind those that are placed. -/
theorem placements_placeRest (h : table.Orderly) (address : Nat) :
    (table.placeRest address).placements =
      table.placements ++ table.waitingTexts.zipIdx address := by
  have hwaiting : (table.literals.drop table.mark).filterMap (fun literal =>
      literal.address.map fun place => (literal.text, place)) = [] := by
    rw [List.filterMap_eq_nil_iff]
    intro literal hliteral
    rw [h.waiting literal hliteral]
    rfl
  have hplaced : table.placements = (table.literals.take table.mark).filterMap fun literal =>
      literal.address.map fun place => (literal.text, place) := by
    rw [placements, ← List.append_nil ((table.literals.take table.mark).filterMap _), ← hwaiting,
      ← List.filterMap_append, List.take_append_drop]
  rw [hplaced, h.waitingTexts_eq, placements, LiteralTable.placeRest, List.filterMap_append,
    Literal.placedAt, List.filterMap_map, List.zipIdx_map]
  congr 1
  change List.filterMap (some ∘ Prod.map Literal.text id) _ = _
  rw [List.filterMap_eq_map]

end Orderly

end LiteralTable

end Assembler
