import Assembler.Proofs.Json.Reading

/-!
# The presentations of a record

A record can be written in many ways.  The members of its object may stand in any order and among
foreign ones, some of them may be left out, and instead of an object there may be an array of the
values of all fields in their order; white space may stand anywhere between these parts.  What the
reader makes of the record does not depend on any of this.

A draft that has some of the fields of a record is determined by the names of these fields.  Each
member of an object adds the name of a field or nothing, so at the end of the object only fields
that may be left out are missing.

## Main definitions

* `Entry` : a field of a record: its name, the texts of its value, and whether it may be left out.
* `Gives`, `Presents` : the objects that give some entries, and the texts of a record.
* `PresentsOption`, `PresentsArray` : the texts of values that may be missing, and of arrays.
* `Shape.ReadsEntries` : a shape reads a record from the texts of its entries.

## Main results

* `Shape.ReadsEntries.reads` : a record is read from all its presentations.
* `Gives.perm`, `Gives.omit` : members in any order, and entries that are left out.
* `presents_writeObject` : what is written for a record is one of them.
-/

namespace Assembler.Json

/-- A field of a record. -/
structure Entry where
  name : String
  /-- The texts of the value. -/
  presents : List Char → Prop
  /-- Whether the field may be left out of an object. -/
  omittable : Prop

/-- A member that gives an entry. -/
inductive Entry.IsGiven (entry : Entry) : List Char → Prop
  | mk {key value : Slot} (hkey : key.Spaced) (hname : Spells key.part entry.name)
      (hvalue : value.Spaced) (hpresents : entry.presents value.part) :
      entry.IsGiven (memberText key value)

/-- A member that gives none of the entries.  It has any value. -/
inductive IsForeign (entries : List Entry) : List Char → Prop
  | mk {name : String} {key value : Slot} (hkey : key.Spaced) (hname : Spells key.part name)
      (hforeign : ∀ entry ∈ entries, entry.name ≠ name) (hvalue : value.Spaced)
      (hjson : IsJson value.part) : IsForeign entries (memberText key value)

/-- Members of an object give what is left of the entries, in any order and among foreign members.
Entries that may be left out need not be given. -/
inductive Gives (entries : List Entry) : List Entry → List (List Char) → Prop
  | omitted {left : List Entry} (h : ∀ entry ∈ left, entry.omittable) : Gives entries left []
  | given {left others : List Entry} {entry : Entry} {member : List Char}
      {members : List (List Char)} (hleft : left.Perm (entry :: others))
      (hmember : entry.IsGiven member) (hrest : Gives entries others members) :
      Gives entries left (member :: members)
  | foreign {left : List Entry} {member : List Char} {members : List (List Char)}
      (hmember : IsForeign entries member) (hrest : Gives entries left members) :
      Gives entries left (member :: members)

/-- The texts of a record: objects that give its entries, and arrays of their values in order. -/
inductive Presents (entries : List Entry) : List Char → Prop
  | object {members : List (List Char)} {gap : List Char} (h : Gives entries entries members)
      (hgap : IsGap gap) : Presents entries (objectText members gap)
  | array {items : List (List Char)} {gap : List Char}
      (h : List.Forall₂ (fun entry item => IsSpaced entry.presents item) entries items)
      (hgap : IsGap gap) : Presents entries (arrayText items gap)

section

variable {α : Type}

/-- The texts of a value that may be missing. -/
inductive PresentsOption (presents : List Char → α → Prop) : List Char → Option α → Prop
  | none : PresentsOption presents ['n', 'u', 'l', 'l'] none
  | some {text : List Char} {value : α} (h : presents text value) :
      PresentsOption presents text (some value)

/-- The texts of an array of values. -/
inductive PresentsArray (presents : List Char → α → Prop) : List Char → List α → Prop
  | mk {items : List (List Char)} {values : List α} {gap : List Char}
      (h : List.Forall₂ (fun value item => IsSpaced (presents · value) item) values items)
      (hgap : IsGap gap) : PresentsArray presents (arrayText items gap) values

variable {read : Reader α} {presents : List Char → α → Prop} {text : List Char}

theorem PresentsOption.reads {value? : Option α} (h : PresentsOption presents text value?)
    (hread : ∀ value ∈ value?, ∀ text, presents text value →
      Reads read text value ∧ text.head? ≠ Option.some 'n') :
    Reads (readOption read) text value? := by
  cases h with
  | none => exact reads_null read
  | some h =>
    obtain ⟨hreads, hnull⟩ := hread _ rfl _ h
    exact hreads.some hnull

theorem PresentsArray.reads {values : List α} (h : PresentsArray presents text values)
    (hread : ∀ value ∈ values, ∀ text, presents text value → Reads read text value) :
    Reads (readArray read) text values := by
  obtain ⟨h, hgap⟩ := h
  have hitems := ((List.forall₂_and_left values _).mpr ⟨hread, h⟩).flip
  exact reads_arrayText (hitems.imp fun item value hitem => hitem.2.imp hitem.1) hgap

theorem presentsOption_writeOption {write : α → List Char}
    (h : ∀ value, presents (write value) value) (value? : Option α) :
    PresentsOption presents (writeOption write value?) value? := by
  cases value? with
  | none => exact .none
  | some value => exact .some (h value)

theorem presentsArray_writeArray {write : α → List Char}
    (h : ∀ value, presents (write value) value) (values : List α) :
    PresentsArray presents (writeArray (values.map write)) values :=
  .mk (List.forall₂_map_right_iff.mpr
    (List.forall₂_same.mpr fun value _ => isSpaced_of_isPart (h value))) isGap_nil

end

variable {entries left : List Entry} {given : List String} {members : List (List Char)}

/-! ### Members in any order -/

/-- In which order the members stand does not matter. -/
theorem Gives.perm {others : List (List Char)} (h : Gives entries left members)
    (hperm : members.Perm others) : Gives entries left others := by
  induction hperm generalizing left with
  | nil => exact h
  | cons member _ ih =>
    cases h with
    | given hleft hmember hrest => exact .given hleft hmember (ih hrest)
    | foreign hmember hrest => exact .foreign hmember (ih hrest)
  | swap second first members =>
    cases h with
    | given hfirst hmember hrest =>
      cases hrest with
      | given hsecond hother hrest =>
        exact .given ((hfirst.trans (hsecond.cons _)).trans (.swap _ _ _)) hother
          (.given (.refl _) hmember hrest)
      | foreign hother hrest => exact .foreign hother (.given hfirst hmember hrest)
    | foreign hmember hrest =>
      cases hrest with
      | given hsecond hother hrest => exact .given hsecond hother (.foreign hmember hrest)
      | foreign hother hrest => exact .foreign hother (.foreign hmember hrest)
  | trans _ _ ihfirst ihsecond => exact ihsecond (ihfirst h)

/-- An entry that may be left out need not be given. -/
theorem Gives.omit {entry : Entry} (h : Gives entries left members) (homittable : entry.omittable) :
    Gives entries (entry :: left) members := by
  induction h with
  | omitted homitted => exact .omitted (List.forall_mem_cons.mpr ⟨homittable, homitted⟩)
  | given hleft hmember _ ih => exact .given ((hleft.cons _).trans (.swap _ _ _)) hmember ih
  | foreign hmember _ ih => exact .foreign hmember ih

/-- A member that is written with a text of the value gives the entry. -/
theorem Entry.isGiven_writeMember {entry : Entry} {text : List Char} (h : entry.presents text) :
    entry.IsGiven (writeMember entry.name text) := by
  rw [← memberText_plain]
  exact .mk (.plain _) (spells_writeString entry.name) (.plain _) h

/-- A member that is written with a well-formed value under another name gives none. -/
theorem isForeign_writeMember {name : String} (hforeign : ∀ entry ∈ entries, entry.name ≠ name)
    {text : List Char} (h : IsJson text) : IsForeign entries (writeMember name text) := by
  rw [← memberText_plain]
  exact .mk (.plain _) (spells_writeString name) hforeign (.plain _) h

/-- Members that are written in the order of the entries give them. -/
private theorem gives_of_forall₂ {written : List (String × List Char)}
    (h : List.Forall₂ (fun (entry : Entry) member => member.1 = entry.name ∧
      entry.presents member.2) left written) :
    Gives entries left (written.map fun (key, value) => writeMember key value) := by
  induction h with
  | nil => exact .omitted fun _ hmem => absurd hmem List.not_mem_nil
  | @cons entry member left written hmember _ ih =>
    obtain ⟨name, text⟩ := member
    obtain ⟨rfl, hpresents⟩ : name = entry.name ∧ entry.presents text := hmember
    exact .given (.refl _) (Entry.isGiven_writeMember hpresents) ih

/-- What is written for a record is one of its presentations. -/
theorem presents_writeObject {written : List (String × List Char)}
    (h : List.Forall₂ (fun (entry : Entry) member => member.1 = entry.name ∧
      entry.presents member.2) entries written) : Presents entries (writeObject written) :=
  .object (gives_of_forall₂ h) isGap_nil

/-! ### Drafts by the names of their fields -/

/-- The entries that have not been given yet. -/
structure IsLeft (entries left : List Entry) (given : List String) : Prop where
  mem : ∀ entry ∈ left, entry ∈ entries
  fresh : ∀ entry ∈ left, entry.name ∉ given
  rest : ∀ entry ∈ entries, entry.name ∈ given ∨ entry ∈ left
  nodup : (left.map Entry.name).Nodup

private theorem isLeft_self (h : (entries.map Entry.name).Nodup) : IsLeft entries entries [] where
  mem _ hmem := hmem
  fresh _ _ := List.not_mem_nil
  rest _ hmem := .inr hmem
  nodup := h

theorem IsLeft.cons {entry : Entry} {others : List Entry} (h : IsLeft entries left given)
    (hleft : left.Perm (entry :: others)) : IsLeft entries others (entry.name :: given) := by
  have hnodup := (hleft.map Entry.name).nodup_iff.mp h.nodup
  rw [List.map_cons, List.nodup_cons] at hnodup
  refine ⟨fun other hother => ?_, fun other hother hmem => ?_, fun other hother => ?_, hnodup.2⟩
  · exact h.mem other (hleft.mem_iff.mpr (List.mem_cons_of_mem _ hother))
  · obtain hname | hgiven := List.mem_cons.mp hmem
    · exact hnodup.1 (hname ▸ List.mem_map_of_mem hother)
    · exact h.fresh other (hleft.mem_iff.mpr (List.mem_cons_of_mem _ hother)) hgiven
  · obtain hgiven | hmem := h.rest other hother
    · exact .inl (List.mem_cons_of_mem _ hgiven)
    · obtain rfl | hothers := List.mem_cons.mp (hleft.mem_iff.mp hmem)
      · exact .inl List.mem_cons_self
      · exact .inr hothers

/-- The value of a field, if the field has been given. -/
def ifGiven {α : Type} (given : List String) (name : String) (value : α) : Option α :=
  if name ∈ given then some value else none

section

variable {α : Type} {name other : String}

theorem ifGiven_of_mem (h : name ∈ given) (value : α) : ifGiven given name value = some value :=
  if_pos h

theorem ifGiven_of_not_mem (h : name ∉ given) (value : α) : ifGiven given name value = none :=
  if_neg h

@[simp] theorem ifGiven_cons_self (given : List String) (name : String) (value : α) :
    ifGiven (name :: given) name value = some value :=
  ifGiven_of_mem List.mem_cons_self value

@[simp] theorem ifGiven_cons_of_ne (h : other ≠ name) (given : List String) (value : α) :
    ifGiven (name :: given) other value = ifGiven given other value := by
  simp only [ifGiven, List.mem_cons, h, false_or]

/-- A value that may be missing is found, whether it has been given or been left out because it is
missing. -/
theorem getD_ifGiven {value? : Option α} (h : name ∈ given ∨ value? = none) :
    (ifGiven given name value?).getD none = value? := by
  rw [ifGiven]
  split_ifs with hmem
  · rfl
  · exact (h.resolve_left hmem).symm

end

namespace Shape

variable {draft record : Type} {shape : Shape draft record} {value : record}
  {draftOf : List String → draft}

/-- A field takes the draft that has some fields to the draft that has this one too. -/
structure ReadsEntry (draftOf : List String → draft) (entry : Entry)
    (field : FieldReader draft) : Prop where
  name_eq : field.name = entry.name
  free : ∀ given, entry.name ∉ given → field.isFilled (draftOf given) = false
  reads : ∀ given text, entry.presents text →
    Reads (field.read (draftOf given)) text (draftOf (entry.name :: given))

/-- A shape reads a record from the texts of its entries. -/
structure ReadsEntries (shape : Shape draft record) (value : record) (entries : List Entry)
    (draftOf : List String → draft) : Prop where
  nodup : (entries.map Entry.name).Nodup
  blank : shape.blank = draftOf []
  fields : List.Forall₂ (ReadsEntry draftOf) entries shape.fields
  finish : ∀ given, (∀ entry ∈ entries, entry.name ∈ given ∨ entry.omittable) →
    shape.finish (draftOf given) = .ok value

/-- The field of an entry is found by its name. -/
private theorem find?_of_mem {fields : List (FieldReader draft)}
    (h : List.Forall₂ (ReadsEntry draftOf) entries fields) (hnodup : (entries.map Entry.name).Nodup)
    {entry : Entry} (hmem : entry ∈ entries) :
    ∃ field, fields.find? (fun field => field.name == entry.name) = some field ∧
      ReadsEntry draftOf entry field := by
  induction h with
  | nil => cases hmem
  | @cons first field entries fields hfirst _ ih =>
    rw [List.map_cons, List.nodup_cons] at hnodup
    obtain rfl | hmem := List.mem_cons.mp hmem
    · exact ⟨field, List.find?_cons_of_pos (by simp [hfirst.name_eq]), hfirst⟩
    · have hne : field.name ≠ entry.name := by
        rw [hfirst.name_eq]
        exact fun heq => hnodup.1 (heq ▸ List.mem_map_of_mem hmem)
      rw [List.find?_cons_of_neg (by simpa using hne)]
      exact ih hnodup.2 hmem

/-- No field is found by a name that no entry has. -/
theorem find?_eq_none {fields : List (FieldReader draft)}
    (h : List.Forall₂ (ReadsEntry draftOf) entries fields) {name : String}
    (hforeign : ∀ entry ∈ entries, entry.name ≠ name) :
    fields.find? (fun field => field.name == name) = none := by
  induction h with
  | nil => rfl
  | @cons entry field entries fields hfirst _ ih =>
    obtain ⟨hne, hforeign⟩ := List.forall_mem_cons.mp hforeign
    rw [List.find?_cons_of_neg (by simpa [hfirst.name_eq] using hne)]
    exact ih hforeign

/-- Members that give what is left of the entries fill the draft of the others. -/
private theorem ReadsEntries.exists_fills (h : shape.ReadsEntries value entries draftOf)
    (hgives : Gives entries left members) (hleft : IsLeft entries left given) :
    ∃ last, shape.Fills (draftOf given) members (draftOf last) ∧
      ∀ entry ∈ entries, entry.name ∈ last ∨ entry.omittable := by
  induction hgives generalizing given with
  | omitted homitted =>
    exact ⟨given, .nil _, fun entry hmem => (hleft.rest entry hmem).imp_right (homitted entry)⟩
  | @given left others entry member members hperm hmember _ ih =>
    have hmem : entry ∈ left := hperm.mem_iff.mpr List.mem_cons_self
    obtain ⟨last, hfills, hlast⟩ := ih (hleft.cons hperm)
    obtain ⟨field, hfind, hreads⟩ := find?_of_mem h.fields h.nodup (hleft.mem entry hmem)
    obtain ⟨hkey, hname, hvalue, hpresents⟩ := hmember
    exact ⟨last, .cons (.field hkey hname hvalue hfind (hreads.free given (hleft.fresh entry hmem))
      (hreads.reads given _ hpresents)) hfills, hlast⟩
  | foreign hmember _ ih =>
    obtain ⟨last, hfills, hlast⟩ := ih hleft
    obtain ⟨hkey, hname, hforeign, hvalue, hjson⟩ := hmember
    exact ⟨last, .cons (.foreign hkey hname hvalue (find?_eq_none h.fields hforeign) hjson) hfills,
      hlast⟩

/-- The values of entries fill a draft in their order. -/
private theorem fillsInOrder_of_forall₂ {fields : List (FieldReader draft)}
    {items : List (List Char)} (h : List.Forall₂ (ReadsEntry draftOf) entries fields)
    (hitems : List.Forall₂ (fun entry item => IsSpaced entry.presents item) entries items)
    (given : List String) :
    FillsInOrder fields (draftOf given) items
      (draftOf ((entries.map Entry.name).reverse ++ given)) := by
  induction h generalizing items given with
  | nil =>
    cases hitems
    exact .nil _
  | @cons entry field entries fields hfirst _ ih =>
    obtain - | ⟨hitem, hitems⟩ := hitems
    rw [List.map_cons, List.reverse_cons, List.append_assoc]
    exact .cons (hitem.imp (hfirst.reads given)) (ih hitems (entry.name :: given))

/-- A record is read from all its presentations. -/
theorem ReadsEntries.reads (h : shape.ReadsEntries value entries draftOf) {text : List Char}
    (hpresents : Presents entries text) : Reads shape.read text value := by
  cases hpresents with
  | object hgives hgap =>
    obtain ⟨last, hfills, hlast⟩ := h.exists_fills hgives (isLeft_self h.nodup)
    rw [← h.blank] at hfills
    exact reads_objectText hfills (h.finish last hlast) hgap
  | array hitems hgap =>
    have hfills := fillsInOrder_of_forall₂ h.fields hitems []
    rw [← h.blank] at hfills
    refine reads_arrayText hfills (h.finish _ fun entry hmem => .inl ?_) hgap
    rw [List.append_nil, List.mem_reverse]
    exact List.mem_map_of_mem hmem

end Shape

end Assembler.Json
