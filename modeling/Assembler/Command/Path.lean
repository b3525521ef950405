/-!
# Names of files

A path is a sequence of parts between slashes.  Its name is the last part that does not merely
point at a folder: empty parts and single points at the end are passed over, and a path that
ends with two points has no name.

The extension of a name is what stands behind its last point, unless the point is the first
character of the name.

Paths and their parts have at most so many bytes in UTF-8.

## Main definitions

* `Path.parts`, `Path.name?` : the parts and the name of a path.
* `Path.isTooLong`, `Path.isTooLongPart` : paths and parts that have too many bytes.
* `Path.stem` : a name without its extension.
* `Path.withoutExtension` : a path without the extension of its name.
-/

namespace Assembler.Command.Path

/-- The parts of a path. -/
def parts (path : String) : List (List Char) :=
  path.toList.splitOn '/'

/-- The path with the given parts. -/
def ofParts (parts : List (List Char)) : String :=
  String.ofList (['/'].intercalate parts)

/-- Whether a path has too many bytes to be followed: more than 4095. -/
def isTooLong (path : String) : Bool :=
  4095 < path.utf8ByteSize

/-- Whether a part of a path has too many bytes to name a file or a folder: more than 255. -/
def isTooLongPart (part : List Char) : Bool :=
  255 < (String.ofList part).utf8ByteSize

/-- The part that names the parent folder. -/
def parent : List Char := ['.', '.']

/-- Whether a part at the end of a path points at nothing new. -/
def isIdle (part : List Char) : Bool :=
  part == [] || part == ['.']

/-- The parts of a path up to its name, last part first. -/
def reversedParts (path : String) : List (List Char) :=
  (parts path).reverse.dropWhile isIdle

/-- The name of a path, if it has one. -/
def name? (path : String) : Option (List Char) :=
  match reversedParts path with
  | [] => none
  | last :: _ => if last = parent then none else some last

/-- What stands before the last point of a name, if that is not nothing. -/
def beforePoint? (name : List Char) : Option (List Char) :=
  match name.reverse.dropWhile (· != '.') with
  | [] => none
  | [_] => none
  | _ :: reversed => some reversed.reverse

/-- A name without its extension. -/
def stem (name : List Char) : List Char :=
  (beforePoint? name).getD name

/-- A name as part of a path from which the extension is removed.  The point before it goes too,
unless the name would then change from the parent folder to this one. -/
def stemInPath (name : List Char) : List Char :=
  let shorter := stem name
  if shorter = ['.'] then parent else shorter

/-- A path without the extension of its name. -/
def withoutExtension (path : String) : String :=
  match reversedParts path with
  | [] => path
  | last :: folders =>
    if last = parent then path else ofParts (stemInPath last :: folders).reverse

/-- The name of a path without its extension, or nothing for a path without a name. -/
def stemOf (path : String) : String :=
  match name? path with
  | none => ""
  | some name => String.ofList (stem name)

end Assembler.Command.Path
