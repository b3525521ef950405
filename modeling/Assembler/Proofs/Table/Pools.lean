import Assembler.Proofs.Table.Literal
import Mathlib.Data.List.Induction

/-!
# Literals and pools over any calls

A literal table is used through three calls: a literal is used, the open pool is placed, or all
that waits is placed.  After any calls on an empty table, failed ones included, the placed
literals are cut into pools without gaps, and every pool stands where the call that made it was
told to put it.

The invariant is that the table is orderly and that the pools, each read as the block of indices
up to the next pool, cover the indices up to the mark.

## Main definitions

* `LiteralTable.Call`, `LiteralTable.call`, `LiteralTable.ofCalls` : calls, and the table after
  them.
* `LiteralTable.blocks` : the pools as blocks of indices.
* `LiteralTable.Lawful` : what holds after calls.

## Main results

* `LiteralTable.lawful_ofCalls` : it holds after any calls.
-/

namespace Assembler.LiteralTable

/-- A call on a literal table. -/
inductive Call
  | intern (text : String)
  | placeOpen (address : Nat)
  | placeAll (address : Nat)
  deriving DecidableEq, Repr

/-- The address that a placement is given. -/
def Call.address? : Call → Option Nat
  | intern _ => none
  | placeOpen address => some address
  | placeAll address => some address

/-- The answer of a placement, and the table after it.  One that fails leaves the table alone. -/
def placement (table : LiteralTable) (result : Except Fault (Nat × LiteralTable)) :
    Except Fault Nat × LiteralTable :=
  match result with
  | .ok (words, placed) => (.ok words, placed)
  | .error fault => (.error fault, table)

/-- The answer of a call, and the table after it. -/
def call (table : LiteralTable) : Call → Except Fault Nat × LiteralTable
  | .intern text => (.ok (table.intern text).1, (table.intern text).2)
  | .placeOpen address => table.placement (table.placeOpen address)
  | .placeAll address => table.placement (table.placeAll address)

/-- The table after calls in order, the first of them on an empty table. -/
def ofCalls (calls : List Call) : LiteralTable :=
  calls.foldl (fun table next => (table.call next).2) {}

/-- The pools of a table: the first index of each, and the index after its last one. -/
def blocks (table : LiteralTable) : List (Nat × Nat) :=
  table.pools.zip (table.pools.tail ++ [table.mark + 1])

/-- The number of literals that have an address. -/
def placedCount (table : LiteralTable) : Nat :=
  table.literals.countP fun literal => literal.address.isSome

/-- The number of literals that wait for one. -/
def pendingCount (table : LiteralTable) : Nat :=
  table.literals.countP fun literal => literal.address.isNone

/-- Some placement among the calls made the pool of a block, and its literals stand from the
address of that call on. -/
def MadeByPlacement (calls : List Call) (block : Nat × Nat) : Prop :=
  ∃ before next after address, calls = before ++ next :: after ∧
    next.address? = some address ∧
    ((ofCalls before).call next).1 = .ok (block.2 - block.1) ∧
    (ofCalls (before ++ [next])).pools = (ofCalls before).pools ++ [block.1] ∧
    ∀ index, block.1 ≤ index → index < block.2 →
      address + (index - block.1) ≤ maxAddress ∧
      ∃ literal, (ofCalls calls).get? index = some literal ∧
        literal.address = some (address + (index - block.1))

/-- What holds of the table after calls. -/
structure Lawful (calls : List Call) : Prop where
  texts_nodup : (ofCalls calls).texts.Nodup
  /-- The index that was answered for a text denotes it, and is answered again. -/
  index_stays : ∀ before text after, calls = before ++ .intern text :: after →
    ∃ index literal, ((ofCalls before).call (.intern text)).1 = .ok index ∧
      ((ofCalls calls).call (.intern text)).1 = .ok index ∧
      (ofCalls calls).get? index = some literal ∧ literal.text = text
  mark_le_size : (ofCalls calls).mark ≤ (ofCalls calls).size
  placed_iff : ∀ index literal, (ofCalls calls).get? index = some literal →
    (literal.address.isSome ↔ index ≤ (ofCalls calls).mark)
  pools_increasing : (ofCalls calls).pools.Pairwise (· < ·)
  pools_begin : ∀ first ∈ (ofCalls calls).pools.head?, first = 1
  blocks_nonempty : ∀ block ∈ (ofCalls calls).blocks, block.1 < block.2
  /-- The blocks of indices in order are the indices up to the mark. -/
  blocks_cover : ((ofCalls calls).blocks.flatMap fun block =>
    List.range' block.1 (block.2 - block.1)) = List.range' 1 (ofCalls calls).mark
  blocks_made : ∀ block ∈ (ofCalls calls).blocks, MadeByPlacement calls block
  address_stays : ∀ before after index literal, calls = before ++ after →
    (ofCalls before).get? index = some literal → literal.address.isSome →
      (ofCalls calls).get? index = some literal
  /-- A placement with room places all that waits and answers how many. -/
  place_ok : ∀ next address, next.address? = some address →
    address + (ofCalls calls).pendingCount ≤ maxAddress →
      ((ofCalls calls).call next).1 = .ok (ofCalls calls).pendingCount ∧
      ((ofCalls calls).call next).2.placedCount =
        (ofCalls calls).placedCount + (ofCalls calls).pendingCount
  /-- A placement without room fails and leaves the table as it is. -/
  place_error : ∀ next address, next.address? = some address →
    maxAddress < address + (ofCalls calls).pendingCount →
      (ofCalls calls).call next =
        (.error (.locationOverflow address (ofCalls calls).pendingCount), ofCalls calls)

/-! ### One call -/

theorem ofCalls_concat (calls : List Call) (next : Call) :
    ofCalls (calls ++ [next]) = ((ofCalls calls).call next).2 := by
  rw [ofCalls, List.foldl_concat]
  rfl

/-- A placement on an orderly table, whichever of the two it is. -/
theorem Orderly.call_eq {table : LiteralTable} (h : table.Orderly) {next : Call} {address : Nat}
    (haddress : next.address? = some address) :
    table.call next =
      if address + table.openSize ≤ maxAddress then
        (.ok table.openSize, table.placeRest address)
      else (.error (.locationOverflow address table.openSize), table) := by
  cases next with
  | intern text => exact absurd haddress (by simp [Call.address?])
  | placeOpen place =>
    obtain rfl : place = address := by simpa [Call.address?] using haddress
    rw [call, placeOpen, h.placeAfter_eq (Nat.le_refl _)]
    split_ifs <;> rfl
  | placeAll place =>
    obtain rfl : place = address := by simpa [Call.address?] using haddress
    rw [call, placeAll, h.placeAfter_eq (Nat.zero_le _)]
    split_ifs <;> rfl

/-- The table after a call is the table after a literal was used, or after the open pool was
placed, or the table itself. -/
theorem Orderly.call_cases {table : LiteralTable} (h : table.Orderly) (next : Call) :
    (∃ text, next = .intern text ∧ (table.call next).2 = (table.intern text).2) ∨
      (∃ address, next.address? = some address ∧ address + table.openSize ≤ maxAddress ∧
        table.call next = (.ok table.openSize, table.placeRest address)) ∨
      (table.call next).2 = table := by
  cases haddress : next.address? with
  | none =>
    cases next with
    | intern text => exact .inl ⟨text, rfl, rfl⟩
    | placeOpen _ => exact absurd haddress (by simp [Call.address?])
    | placeAll _ => exact absurd haddress (by simp [Call.address?])
  | some address =>
    rw [h.call_eq haddress]
    split_ifs with hroom
    · exact .inr (.inl ⟨address, rfl, hroom, rfl⟩)
    · exact .inr (.inr rfl)

theorem Orderly.call {table : LiteralTable} (h : table.Orderly) (next : Call) :
    (table.call next).2.Orderly := by
  obtain ⟨text, -, htable⟩ | ⟨address, -, -, htable⟩ | htable := h.call_cases next
  · rw [htable]
    exact h.intern text
  · rw [htable]
    exact h.placeRest address
  · rw [htable]
    exact h

theorem orderly_ofCalls (calls : List Call) : (ofCalls calls).Orderly := by
  induction calls using List.reverseRecOn with
  | nil => exact orderly_empty
  | append_singleton calls next ih =>
    rw [ofCalls_concat]
    exact ih.call next

/-! ### Later calls -/

private theorem texts_prefix_call {table : LiteralTable} (h : table.Orderly) (next : Call) :
    table.texts <+: (table.call next).2.texts := by
  obtain ⟨text, -, htable⟩ | ⟨address, -, -, htable⟩ | htable := h.call_cases next
  · rw [htable]
    exact texts_prefix_intern table text
  · rw [htable, texts_placeRest]
  · rw [htable]

/-- A placed literal keeps its row. -/
theorem get?_call {table : LiteralTable} (h : table.Orderly) (next : Call) {index : Nat}
    {literal : Literal} (hget : table.get? index = some literal)
    (hplaced : literal.address.isSome) : (table.call next).2.get? index = some literal := by
  obtain ⟨text, -, htable⟩ | ⟨address, -, -, htable⟩ | htable := h.call_cases next
  · rw [htable]
    exact get?_intern text hget
  · rw [htable, get?_placeRest h.mark_le, if_pos ((h.isSome_address_iff hget).mp hplaced)]
    exact hget
  · rw [htable]
    exact hget

private theorem texts_prefix_ofCalls (before after : List Call) :
    (ofCalls before).texts <+: (ofCalls (before ++ after)).texts := by
  induction after using List.reverseRecOn with
  | nil => rw [List.append_nil]
  | append_singleton after next ih =>
    rw [← List.append_assoc, ofCalls_concat]
    exact ih.trans (texts_prefix_call (orderly_ofCalls _) next)

private theorem get?_ofCalls_append (before after : List Call) {index : Nat} {literal : Literal}
    (hget : (ofCalls before).get? index = some literal) (hplaced : literal.address.isSome) :
    (ofCalls (before ++ after)).get? index = some literal := by
  induction after using List.reverseRecOn with
  | nil => rwa [List.append_nil]
  | append_singleton after next ih =>
    rw [← List.append_assoc, ofCalls_concat]
    exact get?_call (orderly_ofCalls _) next ih hplaced

/-! ### Blocks -/

/-- A pool that is placed becomes the last block. -/
theorem blocks_placeRest {table : LiteralTable} (hmark : table.mark ≤ table.size)
    (address : Nat) :
    (table.placeRest address).blocks =
      table.blocks ++ if table.openSize = 0 then [] else [(table.mark + 1, table.size + 1)] := by
  by_cases hopen : table.openSize = 0
  · have hsize : table.size = table.mark := by
      rw [openSize] at hopen
      omega
    simp only [blocks, placeRest, hopen, if_true, List.append_nil, hsize]
  · simp only [blocks, placeRest, hopen, if_false]
    cases table.pools with
    | nil => rfl
    | cons first rest =>
      rw [List.cons_append, List.tail_cons, List.tail_cons, ← List.cons_append,
        List.zip_append (by simp)]
      rfl

/-- The pools of a table cover the indices up to the mark. -/
structure Partitioned (table : LiteralTable) : Prop where
  increasing : table.pools.Pairwise (· < ·)
  le_mark : ∀ first ∈ table.pools, first ≤ table.mark
  begins : ∀ first ∈ table.pools.head?, first = 1
  nonempty : ∀ block ∈ table.blocks, block.1 < block.2
  cover : (table.blocks.flatMap fun block => List.range' block.1 (block.2 - block.1)) =
    List.range' 1 table.mark

private theorem partitioned_empty : Partitioned {} where
  increasing := List.Pairwise.nil
  le_mark := by simp
  begins := by simp
  nonempty := by simp [blocks]
  cover := rfl

theorem Partitioned.placeRest {table : LiteralTable} (h : table.Partitioned)
    (hmark : table.mark ≤ table.size) (address : Nat) :
    (table.placeRest address).Partitioned := by
  by_cases hopen : table.openSize = 0
  · have hsame : (table.placeRest address).pools = table.pools := by
      simp [LiteralTable.placeRest, hopen]
    have hsize : (table.placeRest address).mark = table.mark := by
      rw [openSize] at hopen
      simp only [LiteralTable.placeRest]
      omega
    have hblocks : (table.placeRest address).blocks = table.blocks := by
      rw [blocks, blocks, hsame, hsize]
    refine ⟨?_, ?_, ?_, ?_, ?_⟩
    · rw [hsame]
      exact h.increasing
    · rw [hsame, hsize]
      exact h.le_mark
    · rw [hsame]
      exact h.begins
    · rw [hblocks]
      exact h.nonempty
    · rw [hblocks, hsize]
      exact h.cover
  · have hpools : (table.placeRest address).pools = table.pools ++ [table.mark + 1] := by
      simp [LiteralTable.placeRest, hopen]
    have hsize : (table.placeRest address).mark = table.size := rfl
    have hblocks : (table.placeRest address).blocks =
        table.blocks ++ [(table.mark + 1, table.size + 1)] := by
      rw [blocks_placeRest hmark, if_neg hopen]
    have hlt : table.mark < table.size := by
      rw [openSize] at hopen
      omega
    refine ⟨?_, ?_, ?_, ?_, ?_⟩
    · rw [hpools, List.pairwise_append]
      refine ⟨h.increasing, List.pairwise_singleton _ _, ?_⟩
      intro first hfirst last hlast
      rw [List.mem_singleton.mp hlast]
      exact Nat.lt_succ_of_le (h.le_mark first hfirst)
    · intro first hfirst
      rw [hpools] at hfirst
      rw [hsize]
      rcases List.mem_append.mp hfirst with hold | hlast
      · exact Nat.le_trans (h.le_mark first hold) hmark
      · rw [List.mem_singleton.mp hlast]
        exact hlt
    · intro first hfirst
      rw [hpools] at hfirst
      cases hempty : table.pools with
      | nil =>
        -- without pools nothing is covered, so the new pool is the first
        have hcover := h.cover
        rw [blocks, hempty] at hcover
        have hzero : table.mark = 0 := by
          simpa using (congrArg List.length hcover).symm
        rw [hempty, hzero] at hfirst
        simpa using hfirst.symm
      | cons other rest =>
        apply h.begins first
        rw [hempty] at hfirst ⊢
        exact hfirst
    · intro block hblock
      rw [hblocks] at hblock
      rcases List.mem_append.mp hblock with hold | hlast
      · exact h.nonempty block hold
      · rw [List.mem_singleton.mp hlast]
        exact Nat.succ_lt_succ hlt
    · rw [hblocks, hsize, List.flatMap_append, h.cover]
      simp only [List.flatMap_cons, List.flatMap_nil, List.append_nil, Nat.add_sub_add_right]
      rw [Nat.add_comm table.mark 1, List.range'_append_1, Nat.add_sub_cancel' hmark]

private theorem partitioned_ofCalls (calls : List Call) : (ofCalls calls).Partitioned := by
  induction calls using List.reverseRecOn with
  | nil => exact partitioned_empty
  | append_singleton calls next ih =>
    have horderly := orderly_ofCalls calls
    rw [ofCalls_concat]
    obtain ⟨text, -, htable⟩ | ⟨address, -, -, htable⟩ | htable := horderly.call_cases next
    · rw [htable, intern]
      split_ifs
      · exact ih
      · exact ⟨ih.increasing, ih.le_mark, ih.begins, ih.nonempty, ih.cover⟩
    · rw [htable]
      exact ih.placeRest horderly.mark_le address
    · rw [htable]
      exact ih

/-- A pool that was made stays as it is. -/
theorem MadeByPlacement.append {calls : List Call} {block : Nat × Nat}
    (h : MadeByPlacement calls block) (next : Call) : MadeByPlacement (calls ++ [next]) block := by
  obtain ⟨before, earlier, after, address, hcalls, haddress, hanswer, hpools, hrows⟩ := h
  refine ⟨before, earlier, after ++ [next], address, by rw [hcalls]; simp, haddress, hanswer,
    hpools, ?_⟩
  intro index hfirst hlast
  obtain ⟨hroom, literal, hget, hplace⟩ := hrows index hfirst hlast
  refine ⟨hroom, literal, ?_, hplace⟩
  exact get?_ofCalls_append calls [next] hget (by rw [hplace]; rfl)

/-- A placement with room for the open pool makes it a pool. -/
private theorem madeByPlacement_of_room {calls : List Call} {next : Call} {address : Nat}
    (haddress : next.address? = some address)
    (hroom : address + (ofCalls calls).openSize ≤ maxAddress)
    (hopen : (ofCalls calls).openSize ≠ 0) :
    MadeByPlacement (calls ++ [next]) ((ofCalls calls).mark + 1, (ofCalls calls).size + 1) := by
  have horderly := orderly_ofCalls calls
  have hcall : (ofCalls calls).call next =
      (.ok (ofCalls calls).openSize, (ofCalls calls).placeRest address) := by
    rw [horderly.call_eq haddress, if_pos hroom]
  refine ⟨calls, next, [], address, rfl, haddress, ?_, ?_, ?_⟩
  · rw [hcall, openSize, Nat.add_sub_add_right]
  · rw [ofCalls_concat, hcall]
    simp [placeRest, hopen]
  · intro index hfirst hlast
    dsimp only at hfirst hlast ⊢
    rw [openSize] at hroom
    refine ⟨by omega, ?_⟩
    obtain ⟨position, rfl⟩ : ∃ position, index = position + 1 := ⟨index - 1, by omega⟩
    have hlt : position < (ofCalls calls).literals.length := by
      rw [size] at hlast
      omega
    rw [ofCalls_concat, hcall, get?_placeRest horderly.mark_le, if_neg (by omega), get?,
      List.getElem?_eq_getElem hlt]
    exact ⟨_, rfl, rfl⟩

private theorem madeByPlacement_of_mem_blocks (calls : List Call) :
    ∀ block ∈ (ofCalls calls).blocks, MadeByPlacement calls block := by
  induction calls using List.reverseRecOn with
  | nil =>
    intro block hblock
    exact absurd hblock List.not_mem_nil
  | append_singleton calls next ih =>
    have horderly := orderly_ofCalls calls
    intro block hblock
    rw [ofCalls_concat] at hblock
    obtain ⟨text, -, htable⟩ | ⟨address, haddress, hroom, hcall⟩ | htable :=
      horderly.call_cases next
    · rw [htable, intern] at hblock
      split_ifs at hblock
      · exact (ih block hblock).append next
      · exact (ih block hblock).append next
    · rw [hcall, blocks_placeRest horderly.mark_le] at hblock
      rcases List.mem_append.mp hblock with hold | hnew
      · exact (ih block hold).append next
      · split_ifs at hnew with hopen
        · exact absurd hnew List.not_mem_nil
        · rw [List.mem_singleton.mp hnew]
          exact madeByPlacement_of_room haddress hroom hopen
    · rw [htable] at hblock
      exact (ih block hblock).append next

/-! ### The laws -/

/-- The literals that wait are those of the open pool. -/
theorem Orderly.pendingCount_eq {table : LiteralTable} (h : table.Orderly) :
    table.pendingCount = table.openSize := by
  rw [← h.waiting_eq (Nat.zero_le _)]
  rfl

private theorem placedCount_add_pendingCount (table : LiteralTable) :
    table.placedCount + table.pendingCount = table.size := by
  rw [size, List.length_eq_countP_add_countP fun literal : Literal => literal.address.isSome,
    placedCount, pendingCount]
  congr 2
  funext literal
  cases literal.address <;> rfl

/-- Placing the open pool gives every literal an address. -/
private theorem Orderly.placedCount_placeRest {table : LiteralTable} (h : table.Orderly)
    (address : Nat) :
    (table.placeRest address).placedCount = table.placedCount + table.pendingCount := by
  have hnone : (table.placeRest address).pendingCount = 0 := by
    rw [(h.placeRest address).pendingCount_eq, openSize, size]
    exact Nat.sub_eq_zero_of_le (Nat.le_of_eq (length_placeRest h.mark_le address))
  have hsize : (table.placeRest address).size = table.size := length_placeRest h.mark_le address
  rw [placedCount_add_pendingCount, ← hsize, ← placedCount_add_pendingCount, hnone, Nat.add_zero]

/-- The index that was answered for a text denotes it from then on. -/
theorem index_stays_ofCalls (before after : List Call) (text : String) :
    ∃ index literal, ((ofCalls before).call (.intern text)).1 = .ok index ∧
      ((ofCalls (before ++ .intern text :: after)).call (.intern text)).1 = .ok index ∧
      (ofCalls (before ++ .intern text :: after)).get? index = some literal ∧
      literal.text = text := by
  have hused : ofCalls (before ++ [.intern text]) = ((ofCalls before).intern text).2 :=
    ofCalls_concat before (.intern text)
  have hsplit : before ++ Call.intern text :: after = (before ++ [.intern text]) ++ after := by
    simp
  have hprefix := texts_prefix_ofCalls (before ++ [.intern text]) after
  have hmem : text ∈ (ofCalls (before ++ [.intern text])).texts := by
    rw [hused]
    exact mem_texts_intern_self _ text
  have hindex : (ofCalls (before ++ .intern text :: after)).index text =
      ((ofCalls before).intern text).1 := by
    rw [hsplit, index_eq_of_prefix hprefix hmem, hused, index_intern_self]
  have hrow : ((ofCalls (before ++ .intern text :: after)).find? text).isSome := by
    rw [find?_isSome_iff, hsplit]
    exact hprefix.subset hmem
  obtain ⟨literal, hliteral⟩ := Option.isSome_iff_exists.mp hrow
  refine ⟨((ofCalls before).intern text).1, literal, rfl, ?_, ?_, text_of_find? hliteral⟩
  · rw [← hindex]
    rfl
  · rw [← hindex, get?_index, hliteral]

/-- What holds of literals and pools after any calls. -/
theorem lawful_ofCalls (calls : List Call) : Lawful calls where
  texts_nodup := (orderly_ofCalls calls).distinct
  index_stays := by
    rintro before text after rfl
    exact index_stays_ofCalls before after text
  mark_le_size := (orderly_ofCalls calls).mark_le
  placed_iff := fun _ _ hget => (orderly_ofCalls calls).isSome_address_iff hget
  pools_increasing := (partitioned_ofCalls calls).increasing
  pools_begin := (partitioned_ofCalls calls).begins
  blocks_nonempty := (partitioned_ofCalls calls).nonempty
  blocks_cover := (partitioned_ofCalls calls).cover
  blocks_made := madeByPlacement_of_mem_blocks calls
  address_stays := by
    rintro before after index literal rfl hget hplaced
    exact get?_ofCalls_append before after hget hplaced
  place_ok := by
    intro next address haddress hroom
    have horderly := orderly_ofCalls calls
    have hcall : (ofCalls calls).call next =
        (.ok (ofCalls calls).openSize, (ofCalls calls).placeRest address) := by
      rw [horderly.call_eq haddress, if_pos (horderly.pendingCount_eq ▸ hroom)]
    rw [hcall]
    exact ⟨by rw [horderly.pendingCount_eq], horderly.placedCount_placeRest address⟩
  place_error := by
    intro next address haddress hroom
    have horderly := orderly_ofCalls calls
    rw [horderly.pendingCount_eq] at hroom ⊢
    rw [horderly.call_eq haddress, if_neg (Nat.not_le.mpr hroom)]

end Assembler.LiteralTable
