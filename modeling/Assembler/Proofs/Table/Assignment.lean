import Assembler.Proofs.Table.Pools

/-!
# Placing literals row by row

A placement counts the literals that wait and looks for room before it touches the table.  Then it
visits the rows in order, gives out one address after the other and remembers the first row that
got one, and in the end it notes the pool and opens a new one.  Here these steps are taken on a
table that they change.  What a step has done stays when a later one fails, so that a placement
which fails leaves the table alone is not a matter of types: it holds because nothing can fail once
the first row has been visited.

The number of words is kept in the width of an address, so a count beyond the largest address is
cut down to it.  Tables with no more literals than that do not notice.

## Main definitions

* `Change`, `Change.on` : computations that change a state, and what they come to.
* `LiteralTable.visit`, `LiteralTable.assign` : one row, and the rows of a pool.
* `LiteralTable.flush` : placing literals step by step.
* `LiteralTable.perform` : calls step by step.

## Main results

* `LiteralTable.on_foldlM_visit` : what visiting rows does, whatever rows were visited before.
* `LiteralTable.on_flush` : taken step by step, a placement comes to the same.
* `LiteralTable.on_perform`, `LiteralTable.foldl_perform` : so does one call, and so do any calls.
-/

namespace Assembler

/-- A computation that changes a state.  What it has changed by the time it fails stays. -/
abbrev Change (σ α : Type) :=
  ExceptT Fault (StateM σ) α

namespace Change

variable {σ α β : Type} {change : Change σ α} {state left : σ}

/-- The answer of a change, and the state that it leaves. -/
def on (change : Change σ α) (state : σ) : Except Fault α × σ :=
  change.run.run state

theorem on_bind_of_ok {value : α} (h : change.on state = (.ok value, left))
    (next : α → Change σ β) : on (change >>= next) state = (next value).on left := by
  have hrun : change.run.run state = (.ok value, left) := h
  rw [on, ExceptT.run_bind, StateT.run_bind, hrun]
  rfl

theorem on_bind_of_error {fault : Fault} (h : change.on state = (.error fault, left))
    (next : α → Change σ β) : on (change >>= next) state = (.error fault, left) := by
  have hrun : change.run.run state = (.error fault, left) := h
  rw [on, ExceptT.run_bind, StateT.run_bind, hrun]
  rfl

theorem on_get_bind (state : σ) (next : σ → Change σ β) :
    on (get >>= next) state = (next state).on state :=
  rfl

private theorem on_pure (value : α) (state : σ) : on (pure value) state = (.ok value, state) :=
  rfl

end Change

namespace LiteralTable

/-- How far visiting rows has come: the next address, and the index of the first row that got
one. -/
structure Cursor where
  next : Nat
  first : Option Nat := none

/-- Visits the row at a position.  A literal that waits gets the next address. -/
def visit (cursor : Cursor) (position : Nat) : Change LiteralTable Cursor := do
  let table ← get
  match table.literals[position]? with
  | some ⟨text, none⟩ =>
    set { table with literals := table.literals.set position ⟨text, some cursor.next⟩ }
    return ⟨cursor.next + 1, cursor.first.or (some (position + 1))⟩
  | _ => return cursor

/-- Gives addresses to the literals behind the first `skipped` that wait, and notes the pool. -/
def assign (skipped address : Nat) : Change LiteralTable Nat := do
  let table ← get
  let words := min (table.waiting skipped) maxAddress
  if maxAddress < address + words then
    throw (.locationOverflow address words)
  else
    let positions := List.range' skipped (table.size - skipped)
    let cursor ← positions.foldlM visit { next := address }
    modify fun assigned => { assigned with pools := assigned.pools ++ cursor.first.toList }
    return words

/-- Places the literals behind the first `skipped`, and opens a new pool. -/
def flush (skipped address : Nat) : Change LiteralTable Nat := do
  let words ← assign skipped address
  modify fun assigned => { assigned with mark := assigned.size }
  return words

/-- Places the open pool. -/
def flushOpen (address : Nat) : Change LiteralTable Nat := do
  flush (← get).mark address

/-- Places every literal that waits. -/
def flushAll (address : Nat) : Change LiteralTable Nat :=
  flush 0 address

/-- Makes a call, step by step. -/
def perform : Call → Change LiteralTable Nat
  | .intern text => do
    let table ← get
    set (table.intern text).2
    return (table.intern text).1
  | .placeOpen address => flushOpen address
  | .placeAll address => flushAll address

/-! ### Rows -/

section

variable {table : LiteralTable} {cursor : Cursor} {front rest : List Literal} {literal : Literal}

/-- A row that has an address is passed over. -/
private theorem on_visit_of_placed (cursor : Cursor)
    (hrows : table.literals = front ++ literal :: rest) (hplaced : literal.address.isSome) :
    (visit cursor front.length).on table = (.ok cursor, table) := by
  obtain ⟨address, haddress⟩ := Option.isSome_iff_exists.mp hplaced
  obtain ⟨text, _⟩ := literal
  subst haddress
  have hrow : table.literals[front.length]? = some ⟨text, some address⟩ := by simp [hrows]
  rw [visit, Change.on_get_bind, hrow]
  rfl

/-- A row that waits gets the next address. -/
private theorem on_visit_of_waiting (cursor : Cursor)
    (hrows : table.literals = front ++ literal :: rest) (hwaits : literal.address = none) :
    (visit cursor front.length).on table =
      (.ok ⟨cursor.next + 1, cursor.first.or (some (front.length + 1))⟩,
        { table with
          literals := front ++ { literal with address := some cursor.next } :: rest }) := by
  obtain ⟨text, _⟩ := literal
  subst hwaits
  have hrow : table.literals[front.length]? = some ⟨text, none⟩ := by simp [hrows]
  have hset : table.literals.set front.length ⟨text, some cursor.next⟩ =
      front ++ ⟨text, some cursor.next⟩ :: rest := by
    simp [hrows]
  rw [visit, Change.on_get_bind, hrow, ← hset]
  rfl

/-- Visiting rows in order places those of them that wait, one behind the other, and remembers the
first.  The induction is on the rows that are left; those in front have been visited. -/
theorem on_foldlM_visit (cursor : Cursor) {position : Nat}
    (hrows : table.literals = front ++ rest) (hposition : position = front.length) :
    Change.on ((List.range' position rest.length).foldlM visit cursor) table =
      (.ok ⟨cursor.next + rest.countP fun literal => literal.address.isNone,
          cursor.first.or ((rest.findIdx? fun literal => literal.address.isNone).map
            (position + · + 1))⟩,
        { table with literals := front ++ Literal.placeFrom cursor.next rest }) := by
  induction rest generalizing front cursor table position with
  | nil =>
    have hsame : { table with literals := front ++ Literal.placeFrom cursor.next [] } = table := by
      rw [Literal.placeFrom, ← hrows]
    rw [hsame]
    simp [Change.on_pure]
  | cons literal rest ih =>
    subst hposition
    rw [List.length_cons, List.range'_succ, List.foldlM_cons]
    cases hplace : literal.address with
    | some address =>
      have hvisit := on_visit_of_placed cursor hrows (by rw [hplace]; rfl)
      have hleft : table.literals = (front ++ [literal]) ++ rest := by simp [hrows]
      rw [Change.on_bind_of_ok hvisit, ih cursor hleft (by simp)]
      simp [List.findIdx?_cons, Literal.placeFrom, hplace, Function.comp_def, Nat.add_comm 1,
        Nat.add_assoc]
    | none =>
      have hvisit := on_visit_of_waiting cursor hrows hplace
      have hleft : ({ table with
          literals := front ++ { literal with address := some cursor.next } :: rest } :
            LiteralTable).literals =
          (front ++ [{ literal with address := some cursor.next }]) ++ rest := by
        simp
      rw [Change.on_bind_of_ok hvisit, ih _ hleft (by simp)]
      simp [List.findIdx?_cons, Literal.placeFrom, hplace, Nat.add_comm, Nat.add_assoc]

end

/-! ### Placements -/

section

variable {table : LiteralTable} {skipped : Nat}

/-- Behind the first rows there are the others. -/
private theorem on_visit_positions (hskipped : skipped ≤ table.size) (address : Nat) :
    Change.on ((List.range' skipped (table.size - skipped)).foldlM visit { next := address })
        table =
      (.ok ⟨address + table.waiting skipped, table.firstWaiting? skipped⟩,
        { table with
          literals := table.literals.take skipped ++
            Literal.placeFrom address (table.literals.drop skipped) }) := by
  have hvisit := on_foldlM_visit { next := address }
    (table.literals.take_append_drop skipped).symm (List.length_take_of_le hskipped).symm
  rw [List.length_drop] at hvisit
  exact hvisit

/-- Rows get their addresses where there is room for all of them, and none does elsewhere. -/
private theorem on_assign (hskipped : skipped ≤ table.size)
    (hcount : table.waiting skipped ≤ maxAddress) (address : Nat) :
    (assign skipped address).on table =
      if address + table.waiting skipped ≤ maxAddress then
        (.ok (table.waiting skipped),
          { table with
            literals := table.literals.take skipped ++
              Literal.placeFrom address (table.literals.drop skipped)
            pools := table.pools ++ (table.firstWaiting? skipped).toList })
      else (.error (.locationOverflow address (table.waiting skipped)), table) := by
  rw [assign, Change.on_get_bind]
  dsimp only
  rw [Nat.min_eq_left hcount]
  split_ifs with hfull hroom hroom
  · omega
  · rfl
  · rw [Change.on_bind_of_ok (on_visit_positions hskipped address)]
    rfl
  · omega

/-- Taken step by step, a placement comes to the same. -/
theorem on_flush (hskipped : skipped ≤ table.size) (hcount : table.waiting skipped ≤ maxAddress)
    (address : Nat) :
    (flush skipped address).on table = table.placement (table.placeAfter skipped address) := by
  have hassign := on_assign hskipped hcount address
  rw [flush, placeAfter]
  split_ifs at hassign ⊢ with hroom
  · have hsize : (table.literals.take skipped ++
        Literal.placeFrom address (table.literals.drop skipped)).length = table.size := by
      have htexts := congrArg List.length
        (Literal.map_text_placeFrom address (table.literals.drop skipped))
      rw [List.length_map, List.length_map] at htexts
      rw [List.length_append, htexts, ← List.length_append, List.take_append_drop, size]
    rw [Change.on_bind_of_ok hassign, ← hsize]
    rfl
  · rw [Change.on_bind_of_error hassign]
    rfl

end

/-! ### Calls -/

private theorem waiting_le_size (table : LiteralTable) (skipped : Nat) :
    table.waiting skipped ≤ table.size :=
  Nat.le_trans List.countP_le_length (List.length_drop.trans_le (Nat.sub_le _ _))

/-- Made step by step, a call comes to the same. -/
theorem on_perform {table : LiteralTable} (hmark : table.mark ≤ table.size)
    (hsize : table.size ≤ maxAddress) (next : Call) :
    (perform next).on table = table.call next := by
  have hcount (skipped : Nat) : table.waiting skipped ≤ maxAddress :=
    Nat.le_trans (table.waiting_le_size skipped) hsize
  cases next with
  | intern text => rfl
  | placeOpen address => exact on_flush hmark (hcount table.mark) address
  | placeAll address => exact on_flush (Nat.zero_le _) (hcount 0) address

private theorem size_call_le {table : LiteralTable} (h : table.Orderly) (next : Call) :
    (table.call next).2.size ≤ table.size + 1 := by
  obtain ⟨text, -, htable⟩ | ⟨address, -, -, htable⟩ | htable := h.call_cases next
  · rw [htable, intern]
    split_ifs
    · exact Nat.le_succ _
    · exact Nat.le_of_eq List.length_append
  · rw [htable]
    exact Nat.le_trans (Nat.le_of_eq (length_placeRest h.mark_le address)) (Nat.le_succ _)
  · rw [htable]
    exact Nat.le_succ _

/-- Every call adds at most one row. -/
theorem size_ofCalls_le (calls : List Call) : (ofCalls calls).size ≤ calls.length := by
  induction calls using List.reverseRecOn with
  | nil => exact Nat.le_refl _
  | append_singleton calls next ih =>
    rw [ofCalls_concat, List.length_append, List.length_singleton]
    exact Nat.le_trans (size_call_le (orderly_ofCalls calls) next) (Nat.succ_le_succ ih)

/-- Made step by step, any calls come to the same. -/
theorem foldl_perform {calls : List Call} (h : calls.length ≤ maxAddress) :
    calls.foldl (fun table next => ((perform next).on table).2) {} = ofCalls calls := by
  induction calls using List.reverseRecOn with
  | nil => rfl
  | append_singleton calls next ih =>
    rw [List.length_append, List.length_singleton] at h
    have hsize : (ofCalls calls).size ≤ maxAddress :=
      Nat.le_trans (size_ofCalls_le calls) (by omega)
    rw [List.foldl_concat, ih (by omega), on_perform (orderly_ofCalls calls).mark_le hsize,
      ofCalls_concat]

end LiteralTable

end Assembler
