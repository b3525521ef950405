import Assembler.Location.Counter
import Assembler.Table.Literal
import Assembler.Table.Symbol

/-!
# What is known about a program while it is read

Reading a program fills two tables and moves the location counter.  The encoding of the records
afterwards only looks things up here.

## Main definitions

* `Context` : start address, location counter and tables.
* `Context.bindLabel` : binding a name, with the warning that a new binding of a bound name is.
* `Context.placePool` : placing the open pool at the location counter.
* `Context.close` : placing all that waits, at the end of a program.
-/

namespace Assembler

/-- What is known about a program while it is read. -/
structure Context where
  /-- The address at which the program begins. -/
  start : Nat := 0
  /-- The address at which the next word will stand. -/
  location : Nat := 0
  symbols : SymbolTable := {}
  literals : LiteralTable := {}
  deriving DecidableEq, Repr

namespace Context

/-- Binds a name to an address, and warns where it was bound before. -/
def bindName (context : Context) (name : String) (address : Nat) : List Fault × Context :=
  let (binding, symbols) := context.symbols.define name address
  ((binding.previous.map (Fault.redefinition name)).toList, { context with symbols := symbols })

/-- Binds the label of a statement, if it has one. -/
def bindLabel (context : Context) (label? : Option String) (address : Nat) :
    List Fault × Context :=
  match label? with
  | none => ([], context)
  | some label => context.bindName label address

/-- Moves the location counter past literals that are being placed there. -/
def placeWith (context : Context)
    (place : LiteralTable → Nat → Except Fault (Nat × LiteralTable)) : Except Fault Context :=
  match place context.literals context.location with
  | .error fault => .error fault
  | .ok (words, literals) =>
    (Location.advance context.location words).map fun next =>
      { context with location := next, literals := literals }

/-- Places the open pool at the location counter. -/
def placePool (context : Context) : Except Fault Context :=
  context.placeWith LiteralTable.placeOpen

/-- Ends a program: the open pool is placed, then whatever literal may still wait. -/
def close (context : Context) : Except Fault Context :=
  match context.placePool with
  | .error fault => .error fault
  | .ok placed => placed.placeWith LiteralTable.placeAll

end Context

end Assembler
