import Assembler.Command.Run

/-!
# The command

The outer layer of the program: it reads and writes files and prints.  What is done with them is
decided in `Assembler.Command.Run`.
-/

namespace Assembler.Command

/-- The trouble that the system reports by a number.  Some reports have the number negated. -/
def troubleOfCode? (code : UInt32) : Option Trouble :=
  match (min code (0 - code)).toNat with
  | 2 => some .noSuchFile
  | 20 => some .notAFolder
  | 21 => some .isFolder
  | 36 => some .nameTooLong
  | _ => none

/-- The words for a failed access to a file. -/
def accessText (problem : IO.Error) : String :=
  let trouble? := match problem with
    | .noFileOrDirectory _ code _ => troubleOfCode? code
    | .inappropriateType _ code _ => troubleOfCode? code
    | .invalidArgument _ code _ => troubleOfCode? code
    | _ => none
  (trouble?.map Trouble.message).getD (toString problem)

/-- Prints the outcome of a run and returns its exit status. -/
def finish (outcome : Outcome) : IO UInt32 := do
  IO.print outcome.output
  IO.eprint outcome.errors
  return outcome.status.toUInt32

/-- Writes texts to files in order, up to the first that cannot be written. -/
def writeFiles : List (String × String) → IO (Option (String × String))
  | [] => return none
  | (path, text) :: rest => do
    match ← (IO.FS.writeFile path text).toBaseIO with
    | .ok _ => writeFiles rest
    | .error problem => return some (path, accessText problem)

/-- Runs the command with options. -/
def perform (options : Options) : IO UInt32 := do
  let reading (cause : String) : IO UInt32 :=
    finish ⟨1, "", troubleText "reading" options.input cause⟩
  match ← (IO.FS.readBinFile options.input).toBaseIO with
  | .error problem => reading (accessText problem)
  | .ok bytes =>
    match String.fromUTF8? bytes with
    | none => reading Trouble.notText.message
    | some text =>
      let plan := options.plan text
      match ← writeFiles plan.outputs with
      | none => finish plan.outcome
      | some (path, cause) => finish (plan.stopped path cause)

/-- Runs the command with arguments. -/
def start (arguments : List String) : IO UInt32 :=
  match Request.ofArguments arguments with
  | .assemble options => perform options
  | .version => finish ⟨0, versionText, ""⟩
  | .help => finish ⟨0, helpText, ""⟩
  | .refused => finish usageOutcome

end Assembler.Command

/-- Runs the command with the arguments of the process. -/
def main (arguments : List String) : IO UInt32 :=
  Assembler.Command.start arguments
