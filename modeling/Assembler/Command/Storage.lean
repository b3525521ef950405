import Assembler.Command.Path

/-!
# Files and folders

The files that a run reads and writes lie in a working folder and the folders below it.  A path
is followed part by part.  Every part but the last must lead to a folder that is there, even
where the next part leads back out of it.  A path that is too long as a whole is not followed at
all, and one with a part that is too long is followed up to that part.

A path may leave the working folder.  There it finds the folders above and the root folder, and
no file but those that were written.

A file is written whole or not at all, and writing a file changes no other.

## Main definitions

* `Trouble` : why a file cannot be read or written.
* `Place` : where a file or folder is.
* `Storage` : files and folders.
* `Storage.locate` : what a path leads to.
* `Storage.read`, `Storage.write` : the text of a file, and the storage after a file is written.
* `Storage.changedSince` : the files of the working folder that differ from an earlier storage.

## Main results

* `Storage.contents?_put_self`, `Storage.contents?_put_of_ne` : writing a file replaces its
  contents and those of no other file.
-/

namespace Assembler.Command

/-- Why a file cannot be read or written. -/
inductive Trouble
  | noSuchFile
  | isFolder
  | notAFolder
  /-- The path, or a part of it, has too many bytes. -/
  | nameTooLong
  /-- The bytes of the file are no text in UTF-8. -/
  | notText
  deriving DecidableEq, Repr

/-- The words for a trouble. -/
def Trouble.message : Trouble → String
  | noSuchFile => "No such file or directory (os error 2)"
  | isFolder => "Is a directory (os error 21)"
  | notAFolder => "Not a directory (os error 20)"
  | nameTooLong => "File name too long (os error 36)"
  | notText => "stream did not contain valid UTF-8"

/-- The place of a file or folder: the names on the way to it from the working folder.  Outside
the working folder the way begins with `Path.parent`, once for every folder above, or with the
empty name of the root folder. -/
abbrev Place := List (List Char)

namespace Place

/-- The place of the root folder. -/
def root : Place := [[]]

/-- Whether a place is that of the root folder, of the working folder or of a folder above it.
These folders are always there. -/
def isGiven (place : Place) : Bool :=
  place == root || place.all (· == Path.parent)

/-- The place of the folder that a place lies in.  The root folder lies in itself. -/
def folder (place : Place) : Place :=
  if place = root then root
  else if place.isGiven then place ++ [Path.parent]
  else place.dropLast

/-- Whether a place is that of the working folder or lies below it. -/
def isInside : Place → Bool
  | [] => true
  | first :: _ => first != [] && first != Path.parent

end Place

/-- Files and folders. -/
structure Storage where
  files : List (Place × ByteArray) := []
  folders : List Place := []

/-- What a path leads to. -/
inductive Target
  | folder
  | file (place : Place) (contents : ByteArray)
  /-- Nothing, but a file could be written there. -/
  | vacant (place : Place)

namespace Storage

/-- The contents of the file at a place. -/
def contents? (storage : Storage) (place : Place) : Option ByteArray :=
  (storage.files.find? fun (other, _) => other == place).map Prod.snd

/-- Whether there is a folder at a place.  A folder is there where something lies below it. -/
def isFolder (storage : Storage) (place : Place) : Bool :=
  place.isGiven || storage.folders.any place.isPrefixOf ||
    storage.files.any fun (other, _) => other != place && place.isPrefixOf other

/-- What lies at a place. -/
def target (storage : Storage) (place : Place) : Target :=
  match storage.contents? place with
  | some contents => .file place contents
  | none => if storage.isFolder place then .folder else .vacant place

/-- Follows parts of a path from a folder. -/
def follow (storage : Storage) : Place → List (List Char) → Except Trouble Target
  | _, [] => .ok .folder
  | here, part :: rest =>
    if Path.isIdle part then storage.follow here rest
    else if part = Path.parent then storage.follow here.folder rest
    else if Path.isTooLongPart part then .error .nameTooLong
    else
      match storage.target (here ++ [part]), rest with
      | .folder, rest => storage.follow (here ++ [part]) rest
      | .file place contents, [] => .ok (.file place contents)
      | .file _ _, _ :: _ => .error .notAFolder
      | .vacant place, [] => .ok (.vacant place)
      | .vacant _, _ :: _ => .error .noSuchFile

/-- What a path leads to.  A path that begins with a slash leads down from the root folder, any
other from the working folder. -/
def locate (storage : Storage) (path : String) : Except Trouble Target :=
  if Path.isTooLong path then .error .nameTooLong
  else
    match Path.parts path with
    | [] :: rest@(_ :: _) => storage.follow Place.root rest
    | parts => storage.follow [] parts

/-- The text of the file that a path leads to. -/
def read (storage : Storage) (path : String) : Except Trouble String :=
  match storage.locate path with
  | .error trouble => .error trouble
  | .ok .folder => .error .isFolder
  | .ok (.vacant _) => .error .noSuchFile
  | .ok (.file _ contents) =>
    match String.fromUTF8? contents with
    | some text => .ok text
    | none => .error .notText

/-- The storage with new contents at a place. -/
def put (storage : Storage) (place : Place) (contents : ByteArray) : Storage :=
  { storage with
    files := storage.files.filter (fun (other, _) => other != place) ++ [(place, contents)] }

/-- A file has the contents that were written to it last. -/
theorem contents?_put_self (storage : Storage) (place : Place) (contents : ByteArray) :
    (storage.put place contents).contents? place = some contents := by
  have hnone : (storage.files.filter fun (other, _) => other != place).find?
      (fun (other, _) => other == place) = none := by
    rw [List.find?_eq_none]
    rintro ⟨other, _⟩ hmem
    simpa using (List.mem_filter.1 hmem).2
  simp [contents?, put, List.find?_append, hnone]

/-- Writing a file changes no other file. -/
theorem contents?_put_of_ne (storage : Storage) {place other : Place} (contents : ByteArray)
    (hne : other ≠ place) :
    (storage.put place contents).contents? other = storage.contents? other := by
  have hlast : (place == other) = false := beq_eq_false_iff_ne.2 fun h => hne h.symm
  simp only [contents?, put, List.find?_append, List.find?_cons, hlast, List.find?_nil,
    Option.or_none, List.find?_filter]
  congr 2
  funext ⟨found, _⟩
  by_cases hfound : found = other
  · subst hfound
    simp [hne]
  · simp [hfound]

/-- The storage after a text is written to the file that a path leads to. -/
def write (storage : Storage) (path text : String) : Except Trouble Storage :=
  match storage.locate path with
  | .error trouble => .error trouble
  | .ok .folder => .error .isFolder
  | .ok (.vacant place) => .ok (storage.put place text.toUTF8)
  | .ok (.file place _) => .ok (storage.put place text.toUTF8)

/-- The files of the working folder that are not in an earlier storage with the same contents. -/
def changedSince (storage earlier : Storage) : List (Place × ByteArray) :=
  storage.files.filter fun (place, contents) =>
    place.isInside && earlier.contents? place != some contents

end Storage

end Assembler.Command
