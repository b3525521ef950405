import Assembler.Assembly.Encoding

/-!
# Assembling a program

Assembling reads a program once from front to back and then encodes its records.  It always
completes: what is wrong with the program is in the diagnostics, those of the reading first.

## Main definitions

* `Assembly`, `assemble` : the result of assembling a text.
* `Assembly.hasErrors`, `Assembly.errors` : what keeps a result from being usable.
* `Assembly.machineCode`, `Assembly.intermediateCode` : the two listings.
* `Assembly.failure` : the report on a program with errors.
* `assembleProgram` : the machine code of a program without errors.
-/

namespace Assembler

/-- The result of assembling a program. -/
structure Assembly where
  context : Context
  records : List (Located Record)
  words : List (Located Word)
  diagnostics : List Diagnostic
  deriving DecidableEq, Repr

/-- Assembles the text of a program. -/
def assemble (text : String) : Assembly :=
  let (trace, context) := scanText text {}
  let image := context.image trace.records
  ⟨context, trace.records, image.words, trace.diagnostics ++ image.diagnostics⟩

namespace Assembly

/-- The diagnostics that are errors. -/
def errors (assembly : Assembly) : List Diagnostic :=
  assembly.diagnostics.filter Diagnostic.isError

/-- Whether some diagnostic is an error. -/
def hasErrors (assembly : Assembly) : Bool :=
  assembly.diagnostics.any Diagnostic.isError

/-- The machine code, one word a line. -/
def machineCode (assembly : Assembly) : String :=
  Text.ofLines (assembly.words.map fun word => word.content.text)

/-- The intermediate code, one record a line. -/
def intermediateCode (assembly : Assembly) : String :=
  Text.ofLines (assembly.records.map fun record => record.content.text)

/-- The report on a program that has errors: each of them on an indented line. -/
def failure (assembly : Assembly) : String :=
  "assembly failed" ++ String.join (assembly.errors.map fun error => "\n  " ++ error.text)

/-- The result, unless it has errors; then the report on them. -/
def usable (assembly : Assembly) : Except String Assembly :=
  if assembly.hasErrors then .error assembly.failure else .ok assembly

end Assembly

/-- The machine code of a program, or the report on its errors. -/
def assembleProgram (text : String) : Except String String :=
  (assemble text).usable.map Assembly.machineCode

end Assembler
