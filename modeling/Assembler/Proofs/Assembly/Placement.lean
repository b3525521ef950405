import Assembler.Assembly.Context
import Assembler.Proofs.Table.Assignment

/-!
# Placing the open pool

In a context whose literal table is orderly, placing the open pool moves the location counter by
the number of literals in it, and fails exactly when there is no room for them.  Ending a program
does nothing more: once the open pool is placed no literal waits.

Literals get their addresses before the counter moves past them, and at the end of a program the
two steps are taken twice.  Taken one by one, a step that fails would leave behind what the steps
before it have done.  In such a context only the very first step can fail, so there is nothing that
it could leave behind.  The same is true when the literals too get their addresses one by one.

## Main definitions

* `Context.poolPlaced` : the context after the open pool has been placed.
* `Context.placeStepwise`, `Context.closeStepwise` : the same steps taken one by one.
* `Context.flushPool`, `Context.flushAndClose` : the same steps on a context that they change.

## Main results

* `Context.placePool_eq` : what placing the open pool does.
* `Context.close_eq_placePool` : ending a program is placing the open pool.
* `Context.placePoolStepwise_eq`, `Context.closeStepwise_eq` : steps taken one by one come to the
  same.
* `Context.on_flushPool`, `Context.on_flushAndClose` : so do steps that change the context.
-/

namespace Assembler

/-- Where there is room the counter moves. -/
theorem Location.advance_of_le {location words : Nat} (h : location + words ≤ maxAddress) :
    Location.advance location words = .ok (location + words) :=
  Location.advance_eq_ok_iff.mpr ⟨rfl, h⟩

namespace Context

/-- The context after the open pool has been placed at the location counter. -/
def poolPlaced (context : Context) : Context :=
  { context with
    location := context.location + context.literals.openSize
    literals := context.literals.placeRest context.location }

/-- What placing literals does in a context with an orderly table. -/
theorem placeWith_eq {context : Context} (h : context.literals.Orderly) {skipped : Nat}
    (hskipped : skipped ≤ context.literals.mark) :
    context.placeWith (fun table => table.placeAfter skipped) =
      if context.location + context.literals.openSize ≤ maxAddress then .ok context.poolPlaced
      else .error (.locationOverflow context.location context.literals.openSize) := by
  rw [placeWith, h.placeAfter_eq hskipped]
  split_ifs with hroom
  · dsimp only
    rw [Location.advance_of_le hroom]
    rfl
  · rfl

/-- Placing the open pool succeeds exactly when there is room for it. -/
theorem placePool_eq {context : Context} (h : context.literals.Orderly) :
    context.placePool =
      if context.location + context.literals.openSize ≤ maxAddress then .ok context.poolPlaced
      else .error (.locationOverflow context.location context.literals.openSize) :=
  placeWith_eq h (Nat.le_refl _)

/-- Placing an empty pool leaves an orderly table as it is. -/
theorem poolPlaced_of_openSize_eq_zero {context : Context} (h : context.literals.Orderly)
    (hopen : context.literals.openSize = 0) : context.poolPlaced = context := by
  rw [poolPlaced, hopen, LiteralTable.placeRest_of_openSize_eq_zero h.mark_le hopen]
  rfl

/-- Ending a program is placing the open pool. -/
theorem close_eq_placePool {context : Context} (h : context.literals.Orderly) :
    context.close = context.placePool := by
  rw [close, placePool_eq h]
  split_ifs with hroom
  · have hplaced : context.poolPlaced.literals.Orderly := h.placeRest _
    have hopen : context.poolPlaced.literals.openSize = 0 :=
      LiteralTable.openSize_placeRest h.mark_le _
    have hnone : context.poolPlaced.location + 0 ≤ maxAddress := hroom
    dsimp only
    change context.poolPlaced.placeWith (fun table => table.placeAfter 0) = _
    rw [placeWith_eq hplaced (Nat.zero_le _), hopen, if_pos hnone,
      poolPlaced_of_openSize_eq_zero hplaced hopen]
  · rfl

/-! ### One step at a time -/

/-- Literals get their addresses, and then the counter moves past them.  When a step fails, what
the step before it has done stays. -/
def placeStepwise (context : Context)
    (place : LiteralTable → Nat → Except Fault (Nat × LiteralTable)) : Context × Option Fault :=
  match place context.literals context.location with
  | .error fault => (context, some fault)
  | .ok (words, literals) =>
    match Location.advance context.location words with
    | .error fault => ({ context with literals := literals }, some fault)
    | .ok next => ({ context with location := next, literals := literals }, none)

/-- Placing the open pool, one step at a time. -/
def placePoolStepwise (context : Context) : Context × Option Fault :=
  context.placeStepwise LiteralTable.placeOpen

/-- Ending a program, one step at a time. -/
def closeStepwise (context : Context) : Context × Option Fault :=
  match context.placePoolStepwise with
  | (placed, none) => placed.placeStepwise LiteralTable.placeAll
  | (failed, some fault) => (failed, some fault)

private theorem placeStepwise_eq {context : Context} (h : context.literals.Orderly) {skipped : Nat}
    (hskipped : skipped ≤ context.literals.mark) :
    context.placeStepwise (fun table => table.placeAfter skipped) =
      if context.location + context.literals.openSize ≤ maxAddress then (context.poolPlaced, none)
      else (context, some (.locationOverflow context.location context.literals.openSize)) := by
  rw [placeStepwise, h.placeAfter_eq hskipped]
  split_ifs with hroom
  · dsimp only
    rw [Location.advance_of_le hroom]
    rfl
  · rfl

/-- Placing the open pool one step at a time fails before anything is done, if at all. -/
theorem placePoolStepwise_eq {context : Context} (h : context.literals.Orderly) :
    context.placePoolStepwise =
      if context.location + context.literals.openSize ≤ maxAddress then (context.poolPlaced, none)
      else (context, some (.locationOverflow context.location context.literals.openSize)) :=
  placeStepwise_eq h (Nat.le_refl _)

/-- When the open pool has been placed, there is nothing left to place. -/
theorem placeStepwise_poolPlaced {context : Context} (h : context.literals.Orderly)
    (hroom : context.location + context.literals.openSize ≤ maxAddress) :
    context.poolPlaced.placeStepwise LiteralTable.placeAll = (context.poolPlaced, none) := by
  have hopen : context.poolPlaced.literals.openSize = 0 :=
    LiteralTable.openSize_placeRest h.mark_le _
  have hplaced : context.poolPlaced.literals.Orderly := h.placeRest _
  have hnone : context.poolPlaced.location + 0 ≤ maxAddress := hroom
  change context.poolPlaced.placeStepwise (fun table => table.placeAfter 0) = _
  rw [placeStepwise_eq hplaced (Nat.zero_le _), hopen, if_pos hnone,
    poolPlaced_of_openSize_eq_zero hplaced hopen]

/-- Ending a program one step at a time fails before anything is done, if at all. -/
theorem closeStepwise_eq {context : Context} (h : context.literals.Orderly) :
    context.closeStepwise = context.placePoolStepwise := by
  rw [closeStepwise, placePoolStepwise_eq h]
  split_ifs with hroom
  · exact placeStepwise_poolPlaced h hroom
  · rfl

/-! ### Steps that change the context -/

/-- Changes the literal table of a context. -/
def onLiterals {α : Type} (change : Change LiteralTable α) : Change Context α :=
  ExceptT.mk fun context =>
    ((change.on context.literals).1, { context with literals := (change.on context.literals).2 })

/-- Moves the location counter past words. -/
def advanceBy (words : Nat) : Change Context Unit := do
  let context ← get
  match Location.advance context.location words with
  | .ok next => set { context with location := next }
  | .error fault => throw fault

/-- Places literals at the location counter, and moves it past them. -/
def flushWith (flush : Nat → Change LiteralTable Nat) : Change Context Unit := do
  let context ← get
  let words ← onLiterals (flush context.location)
  advanceBy words

/-- Places the open pool. -/
def flushPool : Change Context Unit :=
  flushWith LiteralTable.flushOpen

/-- Ends a program. -/
def flushAndClose : Change Context Unit := do
  flushPool
  flushWith LiteralTable.flushAll

/-- The answer of steps that have been taken, and the context that they leave. -/
def answered (outcome : Context × Option Fault) : Except Fault Unit × Context :=
  match outcome with
  | (context, none) => (.ok (), context)
  | (context, some fault) => (.error fault, context)

/-- The answer of steps that are taken together, and the context that they leave: the old one, if
they fail. -/
def kept (context : Context) (result : Except Fault Context) : Except Fault Unit × Context :=
  match result with
  | .ok after => (.ok (), after)
  | .error fault => (.error fault, context)

private theorem on_onLiterals {α : Type} {change : Change LiteralTable α} {context : Context}
    {answer : Except Fault α} {literals : LiteralTable}
    (h : change.on context.literals = (answer, literals)) :
    (onLiterals change).on context = (answer, { context with literals := literals }) := by
  have hrun : (onLiterals change).on context = ((change.on context.literals).1,
      { context with literals := (change.on context.literals).2 }) := rfl
  rw [hrun, h]

/-- Literals that get their addresses one by one are placed as in one step. -/
theorem on_flushWith {context : Context} {flush : Nat → Change LiteralTable Nat}
    {place : LiteralTable → Nat → Except Fault (Nat × LiteralTable)}
    (h : (flush context.location).on context.literals =
      context.literals.placement (place context.literals context.location)) :
    (flushWith flush).on context = answered (context.placeStepwise place) := by
  rw [flushWith, Change.on_get_bind, placeStepwise]
  cases hplace : place context.literals context.location with
  | error fault =>
    rw [hplace] at h
    rw [Change.on_bind_of_error (on_onLiterals h)]
    rfl
  | ok placed =>
    obtain ⟨words, literals⟩ := placed
    rw [hplace] at h
    rw [Change.on_bind_of_ok (on_onLiterals h), advanceBy, Change.on_get_bind]
    dsimp only
    cases Location.advance context.location words <;> rfl

section

variable {context : Context} (hsize : context.literals.size ≤ maxAddress)

include hsize

private theorem on_flushPool_eq_answered (h : context.literals.Orderly) :
    flushPool.on context = answered context.placePoolStepwise :=
  on_flushWith (LiteralTable.on_perform h.mark_le hsize (.placeOpen context.location))

/-- The open pool is placed, or it does not fit and nothing has been done. -/
theorem on_flushPool (h : context.literals.Orderly) :
    flushPool.on context = context.kept context.placePool := by
  rw [on_flushPool_eq_answered hsize h, placePoolStepwise_eq h, placePool_eq h]
  split_ifs <;> rfl

/-- A program is ended, or what waits does not fit and nothing has been done. -/
theorem on_flushAndClose (h : context.literals.Orderly) :
    flushAndClose.on context = context.kept context.close := by
  have hpool := on_flushPool hsize h
  rw [flushAndClose, close_eq_placePool h]
  rw [placePool_eq h] at hpool ⊢
  split_ifs at hpool ⊢ with hroom
  · have hplaced : context.poolPlaced.literals.Orderly := h.placeRest _
    have hplacedSize : context.poolPlaced.literals.size ≤ maxAddress :=
      (LiteralTable.length_placeRest h.mark_le _).trans_le hsize
    have hrest := LiteralTable.on_perform hplaced.mark_le hplacedSize
      (.placeAll context.poolPlaced.location)
    rw [Change.on_bind_of_ok hpool, on_flushWith hrest, placeStepwise_poolPlaced h hroom]
    rfl
  · exact Change.on_bind_of_error hpool _

end

end Context

end Assembler
