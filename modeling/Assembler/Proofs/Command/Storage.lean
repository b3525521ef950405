import Assembler.Command.Storage
import Assembler.Proofs.Command.Path

/-!
# Writing files by path

A path that leads to a file leads there through folders, and the file bears the last name of the
path.  Writing it puts the new contents at its place and changes nothing at any other place: no
folder comes or goes, and every path leads to the same place as before.

So whether a file can be written is known before any file is, and what is read from a path is what
was last written to its place.

## Main definitions

* `Storage.placeOf?` : the place of the file that a path leads to.
* `Storage.IsOpen` : the places that are reached through folders.
* `Storage.Reaches` : what is known of a file that a path leads to.

## Main results

* `Storage.exists_reaches`, `Storage.locate_of_placeOf?` : paths to files.
* `Storage.toOption_write`, `Storage.read_eq_ok_iff` : writing and reading by place.
* `Storage.target_put`, `Storage.placeOf?_put` : what a written file changes, and what it does not.
-/

namespace Assembler.Command

/-- The place of a file that is there or could be. -/
def Target.place? : Target → Option Place
  | folder => none
  | file place _ => some place
  | vacant place => some place

/-- A given folder other than the root has a given folder above it. -/
private theorem Place.isGiven_concat_parent {place : Place} (hgiven : place.isGiven = true)
    (hroot : place ≠ root) : isGiven (place ++ [Path.parent]) = true := by
  have hall : place.all (· == Path.parent) = true := by simpa [isGiven, hroot] using hgiven
  simp [isGiven, List.all_append, hall]

namespace Storage

/-- The place of the file that a path leads to, be there one or not. -/
def placeOf? (storage : Storage) (path : String) : Option Place :=
  (storage.locate path).toOption.bind Target.place?

/-- Whether a place and all places on the way to it are folders. -/
def IsOpen (storage : Storage) (place : Place) : Prop :=
  ∀ folder, folder <+: place → storage.isFolder folder = true

/-- In a folder that is reached through folders there is a file with a name, or could be one. -/
structure Reaches (storage : Storage) (folder : Place) (name : List Char) (target : Target) :
    Prop where
  isOpen : storage.IsOpen folder
  isIdle : Path.isIdle name = false
  ne_parent : name ≠ Path.parent
  eq_target : storage.target (folder ++ [name]) = target
  place? : target.place? = some (folder ++ [name])

variable {storage : Storage} {here folder place other : Place} {name : List Char} {path : String}
  {target : Target}

/-! ### What lies at a place -/

theorem target_of_contents? {contents : ByteArray} (h : storage.contents? place = some contents) :
    storage.target place = .file place contents := by
  rw [Storage.target, h]

theorem contents?_of_target {contents : ByteArray}
    (h : storage.target place = .file other contents) :
    storage.contents? place = some contents := by
  rw [Storage.target] at h
  split at h
  · rename_i hcontents
    cases h
    exact hcontents
  · split at h <;> cases h

private theorem isFolder_of_target (h : storage.target place = .folder) :
    storage.isFolder place = true := by
  rw [Storage.target] at h
  split at h
  · cases h
  · split at h
    · assumption
    · cases h

/-- What lies at a place knows its place, unless it is a folder. -/
private theorem place?_target (h : (storage.target place).place? = some other) : other = place := by
  rw [Storage.target] at h
  split at h
  · exact (Option.some.inj h).symm
  · split at h
    · cases h
    · exact (Option.some.inj h).symm

/-! ### Folders on the way -/

private theorem IsOpen.concat (h : storage.IsOpen place)
    (hfolder : storage.isFolder (place ++ [name]) = true) : storage.IsOpen (place ++ [name]) := by
  intro folder hfront
  rcases List.prefix_concat_iff.mp hfront with rfl | hbefore
  · exact hfolder
  · exact h folder hbefore

private theorem isFolder_of_isGiven (h : place.isGiven = true) : storage.isFolder place = true := by
  simp [isFolder, h]

private theorem isOpen_nil : storage.IsOpen [] := by
  intro folder hfront
  rw [List.prefix_nil.mp hfront]
  exact isFolder_of_isGiven rfl

private theorem isOpen_root : storage.IsOpen Place.root :=
  isOpen_nil.concat (isFolder_of_isGiven rfl)

/-- The folder above is reached too. -/
theorem IsOpen.above (h : storage.IsOpen place) : storage.IsOpen place.folder := by
  rw [Place.folder]
  split
  · exact isOpen_root
  · rename_i hroot
    split
    · rename_i hgiven
      exact h.concat (isFolder_of_isGiven (Place.isGiven_concat_parent hgiven hroot))
    · exact fun folder hfront => h folder (hfront.trans (List.dropLast_prefix place))

/-! ### Paths to files -/

private theorem follow_cons (storage : Storage) (here : Place) (part : List Char)
    (rest : List (List Char)) :
    storage.follow here (part :: rest) =
      if Path.isIdle part then storage.follow here rest
      else if part = Path.parent then storage.follow here.folder rest
      else if Path.isTooLongPart part then .error .nameTooLong
      else
        match storage.target (here ++ [part]), rest with
        | .folder, rest => storage.follow (here ++ [part]) rest
        | .file place contents, [] => .ok (.file place contents)
        | .file _ _, _ :: _ => .error .notAFolder
        | .vacant place, [] => .ok (.vacant place)
        | .vacant _, _ :: _ => .error .noSuchFile :=
  follow.eq_def storage here (part :: rest)

/-- Following parts to a file goes through folders, and the last part is the name of the file. -/
private theorem exists_reaches_of_follow {parts : List (List Char)} (hopen : storage.IsOpen here)
    (h : storage.follow here parts = .ok target) (hplace : target.place? = some place) :
    ∃ folder name, parts.getLast? = some name ∧ storage.Reaches folder name target := by
  induction parts generalizing here with
  | nil =>
    cases h
    cases hplace
  | cons part rest ih =>
    -- Where there is more to follow, the last part is that of the rest.
    have hlater : ∀ {here : Place}, storage.IsOpen here → storage.follow here rest = .ok target →
        ∃ folder name, (part :: rest).getLast? = some name ∧
          storage.Reaches folder name target := by
      intro here hopen hrest
      obtain ⟨folder, name, hlast, hreaches⟩ := ih hopen hrest
      exact ⟨folder, name, by rw [List.getLast?_cons, hlast]; rfl, hreaches⟩
    rw [follow_cons] at h
    split_ifs at h with hidle hparent htoolong
    · exact hlater hopen h
    · exact hlater hopen.above h
    · -- The file is here, under the last part.
      have hhere : storage.target (here ++ [part]) = target →
          storage.Reaches here part target := by
        rintro rfl
        obtain rfl := place?_target hplace
        exact ⟨hopen, Bool.eq_false_iff.mpr hidle, hparent, rfl, hplace⟩
      split at h
      · rename_i htarget
        exact hlater (hopen.concat (isFolder_of_target htarget)) h
      · rename_i htarget
        exact ⟨here, part, rfl, hhere (htarget.trans (Except.ok.inj h))⟩
      · cases h
      · rename_i htarget
        exact ⟨here, part, rfl, hhere (htarget.trans (Except.ok.inj h))⟩
      · cases h

/-- A path to a file leads through folders, and its last part is the name of the file. -/
theorem exists_reaches (h : storage.placeOf? path = some place) :
    ∃ folder target, place = folder ++ [Path.lastPart path] ∧
      storage.locate path = .ok target ∧ storage.Reaches folder (Path.lastPart path) target := by
  rw [placeOf?] at h
  cases hlocate : storage.locate path with
  | error trouble =>
    rw [hlocate] at h
    cases h
  | ok target =>
    rw [hlocate] at h
    have hplace : target.place? = some place := h
    have hfollow : ∃ here parts, storage.IsOpen here ∧ storage.follow here parts = .ok target ∧
        parts.getLast? = (Path.parts path).getLast? := by
      rw [locate] at hlocate
      split_ifs at hlocate
      split at hlocate
      · rename_i hparts
        exact ⟨_, _, isOpen_root, hlocate, by rw [hparts, List.getLast?_cons_cons]⟩
      · exact ⟨_, _, isOpen_nil, hlocate, rfl⟩
    obtain ⟨here, parts, hopen, hfollow, hparts⟩ := hfollow
    obtain ⟨folder, name, hlast, hreaches⟩ := exists_reaches_of_follow hopen hfollow hplace
    rw [hparts, Path.getLast?_parts] at hlast
    obtain rfl := Option.some.inj hlast
    exact ⟨folder, target, Option.some.inj (hplace.symm.trans hreaches.place?), rfl, hreaches⟩

/-- A path to a file leads to what lies at its place. -/
theorem locate_of_placeOf? (h : storage.placeOf? path = some place) :
    storage.locate path = .ok (storage.target place) := by
  obtain ⟨folder, target, rfl, hlocate, hreaches⟩ := exists_reaches h
  rw [hlocate, hreaches.eq_target]

/-! ### Writing and reading by place -/

/-- A file is written at the place that its path leads to. -/
theorem toOption_write (storage : Storage) (path text : String) :
    (storage.write path text).toOption =
      (storage.placeOf? path).map (storage.put · text.toUTF8) := by
  rw [write, placeOf?]
  cases storage.locate path with
  | error trouble => rfl
  | ok target => cases target <;> rfl

theorem write_eq_ok_iff {text : String} {written : Storage} :
    storage.write path text = .ok written ↔
      ∃ place, storage.placeOf? path = some place ∧ storage.put place text.toUTF8 = written := by
  rw [← Option.map_eq_some_iff, ← toOption_write]
  cases storage.write path text <;> simp [Except.toOption]

private theorem fromUTF8?_eq_some_iff {contents : ByteArray} {text : String} :
    String.fromUTF8? contents = some text ↔ contents = text.toUTF8 := by
  rw [String.fromUTF8?]
  constructor
  · intro h
    split at h
    · rw [← Option.some.inj h]
      rfl
    · cases h
  · rintro rfl
    rw [String.toUTF8_eq_toByteArray, dif_pos text.isValidUTF8]
    rfl

/-- A file that can be read holds its text. -/
theorem read_eq_ok_iff {text : String} :
    storage.read path = .ok text ↔
      ∃ place, storage.placeOf? path = some place ∧
        storage.contents? place = some text.toUTF8 := by
  constructor
  · intro h
    rw [read] at h
    split at h
    · cases h
    · cases h
    · cases h
    · rename_i place contents hlocate
      have hplace : storage.placeOf? path = some place := by
        rw [placeOf?, hlocate]
        rfl
      split at h
      · rename_i hread
        cases h
        have htarget := Except.ok.inj ((locate_of_placeOf? hplace).symm.trans hlocate)
        rw [← fromUTF8?_eq_some_iff.mp hread]
        exact ⟨place, hplace, contents?_of_target htarget⟩
      · cases h
  · rintro ⟨place, hplace, hcontents⟩
    rw [read, locate_of_placeOf? hplace, target_of_contents? hcontents]
    dsimp only
    rw [fromUTF8?_eq_some_iff.mpr rfl]

/-! ### What a written file changes -/

/-- Writing a file that is reached through folders makes and removes no folder. -/
private theorem isFolder_put (h : storage.IsOpen folder) (name : List Char) (contents : ByteArray)
    (other : Place) :
    (storage.put (folder ++ [name]) contents).isFolder other = storage.isFolder other := by
  by_cases hway : other <+: folder
  · -- On the way to the file there are folders already.
    have hfront : other <+: folder ++ [name] := hway.trans (List.prefix_append folder [name])
    have hne : folder ++ [name] ≠ other := by
      rintro rfl
      exact absurd hway.length_le (by simp)
    rw [h other hway]
    simp [isFolder, put, List.any_append, hne, List.isPrefixOf_iff_prefix.mpr hfront]
  · -- Elsewhere the file is no reason for a folder, neither the old one nor the new.
    have hnone : ∀ entry : Place × ByteArray, entry.1 = folder ++ [name] →
        (entry.1 != other && other.isPrefixOf entry.1) = false := by
      rintro ⟨found, bytes⟩ rfl
      rw [Bool.and_eq_false_imp]
      intro hne
      rw [Bool.eq_false_iff, Ne, List.isPrefixOf_iff_prefix, List.prefix_concat_iff]
      rintro (rfl | hbefore)
      · exact absurd hne (by simp)
      · exact hway hbefore
    have hfiles : ((storage.files.filter fun entry => entry.1 != folder ++ [name]) ++
        [(folder ++ [name], contents)]).any (fun entry =>
          entry.1 != other && other.isPrefixOf entry.1) =
        storage.files.any fun entry => entry.1 != other && other.isPrefixOf entry.1 := by
      rw [List.any_append, List.any_filter, List.any_cons, List.any_nil,
        hnone (folder ++ [name], contents) rfl, Bool.or_false, Bool.or_false]
      congr 1
      funext entry
      by_cases hentry : entry.1 = folder ++ [name]
      · rw [hnone entry hentry, Bool.and_false]
      · simp [hentry]
    simp only [isFolder, put, hfiles]

/-- Writing a file changes nothing at any other place. -/
theorem target_put (h : storage.IsOpen folder) (name : List Char) (contents : ByteArray)
    (other : Place) :
    (storage.put (folder ++ [name]) contents).target other =
      if other = folder ++ [name] then .file (folder ++ [name]) contents
      else storage.target other := by
  split_ifs with heq
  · rw [heq]
    exact target_of_contents? (contents?_put_self _ _ _)
  · rw [Storage.target, Storage.target, contents?_put_of_ne _ _ heq, isFolder_put h]

/-- After a file is written, parts of a path lead to the same place. -/
theorem place?_follow_put (h : storage.Reaches folder name target)
    (contents : ByteArray) (here : Place) (parts : List (List Char)) :
    (((storage.put (folder ++ [name]) contents).follow here parts).toOption.bind
        Target.place?) = (storage.follow here parts).toOption.bind Target.place? := by
  induction parts generalizing here with
  | nil => rfl
  | cons part rest ih =>
    rw [follow_cons, follow_cons]
    split_ifs
    · exact ih here
    · exact ih here.folder
    · rfl
    · rw [target_put h.isOpen]
      by_cases heq : here ++ [part] = folder ++ [name]
      · rw [if_pos heq, heq, h.eq_target]
        have hplace := h.place?
        cases target with
        | folder => cases hplace
        | file =>
          cases rest with
          | nil => exact hplace.symm
          | cons => rfl
        | vacant =>
          cases rest with
          | nil => exact hplace.symm
          | cons => rfl
      · rw [if_neg heq]
        cases storage.target (here ++ [part]) with
        | folder => exact ih (here ++ [part])
        | file => cases rest <;> rfl
        | vacant => cases rest <;> rfl

/-- After a file is written, every path leads to the same place. -/
theorem placeOf?_put (h : storage.placeOf? path = some place) (contents : ByteArray)
    (other : String) : (storage.put place contents).placeOf? other = storage.placeOf? other := by
  obtain ⟨folder, target, rfl, -, hreaches⟩ := exists_reaches h
  rw [placeOf?, placeOf?, locate, locate]
  split_ifs
  · rfl
  · split
    · exact place?_follow_put hreaches contents _ _
    · exact place?_follow_put hreaches contents _ _

end Storage

end Assembler.Command
