import Assembler.Command.Path
import Assembler.Proofs.Text.Line

/-!
# Names with other endings

A path ends in its last part, and what is appended to the path is appended to that part, as long as
no slash is in it.  Where the last part is a name, taking the extension away changes nothing but
that part, and always leaves something of it.

## Main definitions

* `Path.lastPart` : the last part of a path.
* `Path.afterPoint?`, `Path.extension?` : what stands behind the last point of a name, and the
  extension of a path.

## Main results

* `Path.lastPart_append` : the last part of a longer path.
* `Path.lastPart_withoutExtension` : the last part of a path without its extension.
* `Path.afterPoint?_append_cons` : the extension of a name that was given one.
-/

namespace Assembler.Command.Path

/-- What is behind the last separator of a text comes to stand before what is appended to it. -/
private theorem getLast?_splitOn_append {separator : Char} {ending : List Char}
    (h : separator ∉ ending) (text : List Char) :
    ((text ++ ending).splitOn separator).getLast? =
      (text.splitOn separator).getLast?.map (· ++ ending) := by
  -- The pieces before the last are the same, which carries the induction.
  suffices hpieces : ∃ front last, text.splitOn separator = front ++ [last] ∧
      (text ++ ending).splitOn separator = front ++ [last ++ ending] by
    obtain ⟨front, last, htext, happended⟩ := hpieces
    rw [htext, happended, List.getLast?_concat, List.getLast?_concat]
    rfl
  induction text with
  | nil =>
    refine ⟨[], [], rfl, ?_⟩
    exact List.splitOnP_eq_singleton fun c hc => beq_false_of_ne fun heq => h (heq ▸ hc)
  | cons c rest ih =>
    obtain ⟨front, last, hrest, happended⟩ := ih
    rw [List.cons_append, List.splitOn_cons_eq_if_modifyHead,
      List.splitOn_cons_eq_if_modifyHead, hrest, happended]
    split
    · exact ⟨[] :: front, last, rfl, rfl⟩
    · cases front with
      | nil => exact ⟨[], c :: last, rfl, rfl⟩
      | cons first front => exact ⟨(c :: first) :: front, last, rfl, rfl⟩

/-! ### The last part -/

/-- The last part of a path. -/
def lastPart (path : String) : List Char :=
  (parts path).getLastD []

theorem getLast?_parts (path : String) : (parts path).getLast? = some (lastPart path) := by
  obtain ⟨front, last, hparts⟩ := (parts path).eq_nil_or_concat.resolve_left
    (List.splitOn_ne_nil '/' path.toList)
  rw [lastPart, hparts, List.concat_eq_append, List.getLast?_concat, List.getLastD_concat]

private theorem not_mem_of_mem_parts {path : String} {part : List Char} (h : part ∈ parts path) :
    '/' ∉ part :=
  Text.not_mem_of_mem_splitOn h

/-- A last part that is a name is the first of the reversed parts. -/
theorem exists_reversedParts {path : String} (hidle : isIdle (lastPart path) = false) :
    ∃ folders, parts path = folders ++ [lastPart path] ∧
      reversedParts path = lastPart path :: folders.reverse := by
  obtain ⟨folders, hparts⟩ := List.getLast?_eq_some_iff.mp (getLast?_parts path)
  refine ⟨folders, hparts, ?_⟩
  rw [reversedParts, hparts, List.reverse_concat, List.dropWhile_cons_of_neg (by simp [hidle])]

/-- What is appended to a path is appended to its last part. -/
theorem lastPart_append (path : String) {ending : String} (h : '/' ∉ ending.toList) :
    lastPart (path ++ ending) = lastPart path ++ ending.toList := by
  have hlast : (parts (path ++ ending)).getLast? =
      (parts path).getLast?.map (· ++ ending.toList) := by
    rw [parts, String.toList_append]
    exact getLast?_splitOn_append h path.toList
  rw [getLast?_parts, getLast?_parts] at hlast
  exact Option.some.inj hlast

/-- Parts that hold no slash are the parts of their path. -/
private theorem parts_ofParts {names : List (List Char)} (h : ∀ name ∈ names, '/' ∉ name)
    (hne : names ≠ []) : parts (ofParts names) = names := by
  rw [parts, ofParts, String.toList_ofList, List.splitOn_intercalate '/' h hne]

/-! ### Names without their extension -/

section

variable {name before ending : List Char}

/-- What stands before the last point is something, and the point follows it. -/
theorem exists_of_beforePoint? (h : beforePoint? name = some before) :
    before ≠ [] ∧ ∃ ending, name = before ++ '.' :: ending := by
  unfold beforePoint? at h
  split at h
  · cases h
  · cases h
  · rename_i c reversed hne hdropped
    cases h
    have hpoint : c = '.' := by
      have hhead := List.head?_dropWhile_not (· != '.') name.reverse
      rw [hdropped] at hhead
      simpa using hhead
    have hname : name =
        reversed.reverse ++ '.' :: (name.reverse.takeWhile (· != '.')).reverse := by
      conv_lhs => rw [← name.reverse_reverse,
        ← List.takeWhile_append_dropWhile (p := (· != '.')) (l := name.reverse), hdropped, hpoint]
      simp
    exact ⟨fun hnil => hne (List.reverse_eq_nil_iff.mp hnil), _, hname⟩

private theorem stem_ne_nil (h : name ≠ []) : stem name ≠ [] := by
  rw [stem]
  cases hbefore : beforePoint? name with
  | none => exact h
  | some before => exact (exists_of_beforePoint? hbefore).1

private theorem mem_of_mem_stem {c : Char} (h : c ∈ stem name) : c ∈ name := by
  rw [stem] at h
  cases hbefore : beforePoint? name with
  | none => rwa [hbefore] at h
  | some before =>
    rw [hbefore] at h
    obtain ⟨-, ending, rfl⟩ := exists_of_beforePoint? hbefore
    exact List.mem_append_left _ h

theorem stemInPath_ne_nil (h : name ≠ []) : stemInPath name ≠ [] := by
  dsimp only [stemInPath]
  split
  · exact List.cons_ne_nil _ _
  · exact stem_ne_nil h

private theorem not_mem_stemInPath (h : '/' ∉ name) : '/' ∉ stemInPath name := by
  dsimp only [stemInPath]
  split
  · decide
  · exact fun hmem => h (mem_of_mem_stem hmem)

end

/-- Where the last part of a path is a name, it alone is changed by taking the extension away. -/
theorem lastPart_withoutExtension {path : String} (hidle : isIdle (lastPart path) = false)
    (hparent : lastPart path ≠ parent) :
    lastPart (withoutExtension path) = stemInPath (lastPart path) := by
  obtain ⟨folders, hparts, hreversed⟩ := exists_reversedParts hidle
  have hshorter : ∀ part ∈ folders ++ [stemInPath (lastPart path)], '/' ∉ part := by
    intro part hpart
    rcases List.mem_append.mp hpart with hfolder | hlast
    · exact not_mem_of_mem_parts (by rw [hparts]; exact List.mem_append_left _ hfolder)
    · rw [List.mem_singleton.mp hlast]
      exact not_mem_stemInPath (not_mem_of_mem_parts (List.mem_of_getLast? (getLast?_parts path)))
  have hpath : withoutExtension path = ofParts (folders ++ [stemInPath (lastPart path)]) := by
    simp [withoutExtension, hreversed, hparent]
  rw [lastPart, hpath, parts_ofParts hshorter (by simp), List.getLastD_concat]

/-! ### Extensions -/

/-- What stands behind the last point of a name, unless the point is its first character. -/
def afterPoint? (name : List Char) : Option (List Char) :=
  if '.' ∈ name.tail then (name.splitOn '.').getLast? else none

/-- The extension of the name of a path. -/
def extension? (path : String) : Option String :=
  ((name? path).bind afterPoint?).map String.ofList

/-- The extension of a name that was given one. -/
theorem afterPoint?_append_cons {name ending : List Char} (hname : name ≠ [])
    (hending : '.' ∉ ending) : afterPoint? (name ++ '.' :: ending) = some ending := by
  obtain ⟨c, rest, rfl⟩ := List.exists_cons_of_ne_nil hname
  have hpiece : ending.splitOn '.' = [ending] :=
    List.splitOnP_eq_singleton fun c hc => beq_false_of_ne fun heq => hending (heq ▸ hc)
  rw [afterPoint?, if_pos (by simp), List.splitOn_append_cons_self, hpiece, List.getLast?_concat]

/-- The extension of a path whose last part is a name. -/
theorem extension?_eq {path : String} (hidle : isIdle (lastPart path) = false)
    (hparent : lastPart path ≠ parent) :
    extension? path = (afterPoint? (lastPart path)).map String.ofList := by
  obtain ⟨folders, -, hreversed⟩ := exists_reversedParts hidle
  have hname : name? path = some (lastPart path) := by
    rw [name?, hreversed]
    exact if_neg hparent
  rw [extension?, hname]
  rfl

-- A point in front begins no extension, and one at the end begins an empty one.
example : ["src/.mc", "src/.mc.asm", "src/a.b."].map extension? = [none, some "asm", some ""] := by
  decide +kernel

end Assembler.Command.Path
