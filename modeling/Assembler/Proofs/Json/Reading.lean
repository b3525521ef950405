import Assembler.Proofs.Json.Skipping

/-!
# Reading values

A reader reads a value from a text if it takes the whole text and nothing more, whatever white space
stands in front of it and whatever may stand behind it.  Strings are read however they are written,
natural numbers within their range as they are written, and values that may be missing from `null`.
Arrays are read if their values are.

A record is read from an object whose members fill its draft, each of them a field that the draft
does not have yet, or no field at all.  It is also read from an array of the values of its fields in
their order.

## Main definitions

* `Reads` : a reader reads a value from a text.
* `Shape.Takes`, `Shape.Fills` : members of an object fill a draft.
* `Shape.FillsInOrder` : values in the order of the fields fill it.

## Main results

* `reads_of_spells`, `reads_writeNatural`, `reads_null`, `Reads.some` : scalars.
* `reads_arrayText` : arrays.
* `Shape.reads_objectText`, `Shape.reads_arrayText` : records.
* `readDocument_eq` : a text that holds a value and white space around it.
-/

namespace Assembler.Json

/-- A reader reads a value from a text, whatever white space stands in front and whatever may stand
behind. -/
structure Reads {α : Type} (read : Reader α) (text : List Char) (value : α) : Prop where
  begins : Begins text
  read_eq : ∀ gap rest, IsGap gap → Follows rest → read (gap ++ (text ++ rest)) = .ok (value, rest)

variable {gap rest tail : List Char}

/-! ### Scalars -/

/-- A string is read however it is written. -/
theorem reads_of_spells {text : List Char} {value : String} (h : Spells text value) :
    Reads readText text value where
  begins := by
    obtain ⟨units, -, rfl⟩ := h
    exact ⟨'"', _, rfl, rfl, by decide⟩
  read_eq gap rest hgap _ := by
    obtain ⟨units, hunits, rfl⟩ := h
    rw [List.cons_append, List.append_assoc, List.singleton_append, readText,
      skipSpace_append_cons hgap rfl]
    exact readString_flatten hunits rest

/-- A number begins with a digit. -/
theorem exists_digit_writeNatural (n : Nat) :
    ∃ c more, writeNatural n = c :: more ∧ c.isDigit = true := by
  obtain ⟨c, more, hwritten, hdigit, -⟩ :=
    exists_digit_of_isNumeral (isWhole_writeNatural n).numeral
  exact ⟨c, more, hwritten, hdigit⟩

private theorem Range.limit_le (range : Range) : range.limit ≤ Range.count.limit := by
  cases range <;> decide

theorem reads_writeNatural {range : Range} {n : Nat} (h : n ≤ range.limit) :
    Reads (readNatural range) (writeNatural n) n where
  begins := by
    obtain ⟨c, more, hwritten, hdigit⟩ := exists_digit_writeNatural n
    refine ⟨c, more, hwritten, isSpace_of_isDigit hdigit, ?_⟩
    rintro rfl
    cases hdigit
  read_eq gap rest hgap hrest := by
    have hread := readNumber_writeNatural (Nat.le_trans h range.limit_le) hrest
    obtain ⟨c, digits, hwritten, hdigit⟩ := exists_digit_writeNatural n
    rw [hwritten, List.cons_append] at hread ⊢
    rw [readNatural, skipSpace_append_cons hgap (isSpace_of_isDigit hdigit)]
    dsimp only
    rw [if_pos (by rw [beginsNumber, hdigit, Bool.or_true]), hread]
    exact if_pos h

section

variable {α : Type} {read : Reader α} {text : List Char} {value : α}

/-- Where `null` stands no value is read. -/
theorem reads_null (read : Reader α) : Reads (readOption read) ['n', 'u', 'l', 'l'] none where
  begins := ⟨'n', _, rfl, rfl, by decide⟩
  read_eq gap rest hgap _ := by
    simp only [List.cons_append, List.nil_append]
    rw [readOption, skipSpace_append_cons hgap rfl]
    rfl

/-- A value that may be missing is read where it stands. -/
theorem Reads.some (h : Reads read text value) (hnull : text.head? ≠ some 'n') :
    Reads (readOption read) text (Option.some value) where
  begins := h.begins
  read_eq gap rest hgap hrest := by
    have hread := h.read_eq [] rest isGap_nil hrest
    rw [List.nil_append] at hread
    rw [readOption, h.begins.skipSpace hgap]
    obtain ⟨c, more, rfl, -⟩ := h.begins
    split
    · rename_i heq
      obtain ⟨rfl, -⟩ := List.cons.inj heq
      exact absurd rfl hnull
    · rw [hread]
      rfl

end

/-! ### What stands next inside a bracket -/

/-- A text begins what stands next inside a bracket: at once behind the bracket, or else behind a
comma. -/
inductive Starts : Bool → List Char → List Char → Prop
  | first (text : List Char) : Starts true text text
  | comma {gap : List Char} (hgap : IsGap gap) (text : List Char) :
      Starts false text (gap ++ ',' :: text)

private theorem nextItem_closing (first : Bool) (hgap : IsGap gap) (rest : List Char) :
    nextItem first (gap ++ ']' :: rest) = .ok (.closed rest) := by
  rw [nextItem, skipSpace_append_cons hgap rfl]
  rfl

private theorem nextItem_of_starts {slot : Slot} (hspaced : slot.Spaced)
    (hbegins : Begins slot.part)
    {first : Bool} {start : List Char} (hstart : Starts first (slot.text ++ tail) start) :
    nextItem first start = .ok (.another (slot.part ++ (slot.back ++ tail))) := by
  have hpart : skipSpace (slot.text ++ tail) = slot.part ++ (slot.back ++ tail) := by
    rw [slot.text_append, hbegins.skipSpace hspaced.front]
  obtain ⟨c, more, hcons, -, hclosing⟩ := hbegins
  rw [hcons, List.cons_append] at hpart ⊢
  cases hstart with
  | first =>
    rw [nextItem, hpart]
    split
    · rename_i heq
      cases heq
    · rename_i heq
      exact absurd (List.cons.inj heq).1 hclosing
    · rename_i heq
      rw [if_pos rfl, heq]
  | comma hgap =>
    rw [nextItem, skipSpace_append_cons hgap rfl]
    split
    · rename_i heq
      cases heq
    · rename_i heq
      exact absurd (List.cons.inj heq).1 (by decide)
    · rename_i heq
      obtain ⟨rfl, rfl⟩ := List.cons.inj heq
      rw [if_neg Bool.false_ne_true, if_pos rfl, hpart]
      split
      · rename_i heq
        cases heq
      · rename_i heq
        exact absurd (List.cons.inj heq).1 hclosing
      · rfl

private theorem nextKey_closing (first : Bool) (hgap : IsGap gap) (rest : List Char) :
    nextKey first (gap ++ '\x7d' :: rest) = .ok (.closed rest) := by
  rw [nextKey, skipSpace_append_cons hgap rfl]
  rfl

private theorem nextKey_of_starts (hgap : IsGap gap) {first : Bool} {start : List Char}
    (hstart : Starts first (gap ++ '"' :: rest) start) :
    nextKey first start = .ok (.another rest) := by
  cases hstart with
  | first =>
    rw [nextKey, skipSpace_append_cons hgap rfl]
    rfl
  | comma hbefore =>
    rw [nextKey, skipSpace_append_cons hbefore rfl]
    change (readExact '"' (skipSpace (gap ++ '"' :: rest))).map Next.another = _
    rw [skipSpace_append_cons hgap rfl]
    rfl

/-! ### Arrays -/

section

variable {α : Type} {read : Reader α} {item : List Char} {value : α} {items : List (List Char)}
  {values : List α}

private theorem ne_nil_of_isSpaced (h : IsSpaced (Reads read · value) item) : item ≠ [] := by
  obtain ⟨slot, -, hread, rfl⟩ := h
  obtain ⟨c, more, hpart, -⟩ := hread.begins
  simp [Slot.text, hpart]

private theorem readItems_of_starts (h : IsSpaced (Reads read · value) item) (htail : Follows tail)
    {first : Bool} {start : List Char} (hstart : Starts first (item ++ tail) start) :
    ∃ back, IsGap back ∧ ∀ c bound, readItems read bound false (back ++ tail) = .ok (values, rest) →
      readItems read (c :: bound) first start = .ok (value :: values, rest) := by
  obtain ⟨slot, hspaced, hread, rfl⟩ := h
  refine ⟨slot.back, hspaced.back, fun c bound hrest => ?_⟩
  have hvalue := hread.read_eq [] (slot.back ++ tail) isGap_nil (follows_append hspaced.back htail)
  rw [List.nil_append] at hvalue
  rw [readItems]
  refine (bind_eq_of_eq_ok (nextItem_of_starts hspaced hread.begins hstart)).trans ?_
  refine (bind_eq_of_eq_ok hvalue).trans ?_
  exact bind_eq_of_eq_ok hrest

private theorem follows_items (items : List (List Char)) (hgap : IsGap gap) (rest : List Char) :
    Follows (items.flatMap (',' :: ·) ++ (gap ++ ']' :: rest)) :=
  follows_flatMap _ items hgap Bracket.array.follows_closing rest

private theorem readItems_flatMap
    (h : List.Forall₂ (fun item value => IsSpaced (Reads read · value) item)
      items values) (hgap : IsGap gap) (rest : List Char) {bound before : List Char}
    (hbefore : IsGap before) (hbound : items.length < bound.length) :
    readItems read bound false (before ++ (items.flatMap (',' :: ·) ++ (gap ++ ']' :: rest))) =
      .ok (values, rest) := by
  induction h generalizing bound before with
  | nil =>
    cases bound with
    | nil => cases hbound
    | cons c bound =>
      rw [List.flatMap_nil, List.nil_append, ← List.append_assoc, readItems]
      exact bind_eq_of_eq_ok (nextItem_closing false (isGap_append hbefore hgap) rest)
  | @cons item value items values hitem _ ih =>
    cases bound with
    | nil => cases hbound
    | cons c bound =>
      rw [List.flatMap_cons, List.append_assoc, List.cons_append]
      obtain ⟨back, hback, hread⟩ := readItems_of_starts hitem (follows_items items hgap rest)
        (.comma hbefore _)
      exact hread c bound (ih hback (Nat.lt_of_succ_lt_succ hbound))

private theorem readItems_separated
    (h : List.Forall₂ (fun item value => IsSpaced (Reads read · value) item) items values)
    (hgap : IsGap gap) (rest : List Char) {bound : List Char}
    (hbound : items.length < bound.length) :
    readItems read bound true (separated items ++ (gap ++ ']' :: rest)) = .ok (values, rest) := by
  cases bound with
  | nil => cases hbound
  | cons c bound =>
    cases h with
    | nil =>
      rw [readItems]
      exact bind_eq_of_eq_ok (nextItem_closing true hgap rest)
    | @cons item value items values hitem hitems =>
      rw [separated_cons, List.append_assoc]
      obtain ⟨back, hback, hread⟩ := readItems_of_starts hitem (follows_items items hgap rest)
        (.first _)
      exact hread c bound
        (readItems_flatMap hitems hgap rest hback (Nat.lt_of_succ_lt_succ hbound))

/-- An array is read if each of its values is. -/
theorem reads_arrayText
    (h : List.Forall₂ (fun item value => IsSpaced (Reads read · value) item) items values)
    (hgap : IsGap gap) : Reads (readArray read) (arrayText items gap) values where
  begins := ⟨'[', _, rfl, rfl, by decide⟩
  read_eq before rest hbefore _ := by
    rw [arrayText, List.cons_append, List.append_assoc, List.append_assoc, List.singleton_append,
      readArray, skipSpace_append_cons hbefore rfl]
    refine readItems_separated h hgap rest ?_
    have hlength := length_le_separated (forall_of_forall₂ h fun _ _ => ne_nil_of_isSpaced)
    simp only [List.length_append, List.length_cons]
    omega

end

/-! ### Records -/

namespace Shape

variable {draft record : Type} {shape : Shape draft record} {filled next last : draft}
  {member : List Char} {members items : List (List Char)} {fields : List (FieldReader draft)}

/-- A member of an object takes a draft to the next one: it has the key of a field that the draft
does not have yet, and a value that the field is read from; or its key names no field, and it has
any value. -/
inductive Takes (shape : Shape draft record) : draft → List Char → draft → Prop
  | field {filled next : draft} {name : String} {key value : Slot} {field : FieldReader draft}
      (hkey : key.Spaced) (hname : Spells key.part name) (hvalue : value.Spaced)
      (hfind : shape.fields.find? (fun field => field.name == name) = some field)
      (hfree : field.isFilled filled = false)
      (hread : Reads (field.read filled) value.part next) :
      Takes shape filled (memberText key value) next
  | foreign {filled : draft} {name : String} {key value : Slot}
      (hkey : key.Spaced) (hname : Spells key.part name) (hvalue : value.Spaced)
      (hfind : shape.fields.find? (fun field => field.name == name) = none)
      (hjson : IsJson value.part) : Takes shape filled (memberText key value) filled

/-- Members of an object fill a draft one after the other. -/
inductive Fills (shape : Shape draft record) : draft → List (List Char) → draft → Prop
  | nil (filled : draft) : Fills shape filled [] filled
  | cons {filled next last : draft} {member : List Char} {members : List (List Char)}
      (h : shape.Takes filled member next) (hrest : Fills shape next members last) :
      Fills shape filled (member :: members) last

/-- Values in the order of the fields fill a draft one after the other. -/
inductive FillsInOrder : List (FieldReader draft) → draft → List (List Char) → draft → Prop
  | nil (filled : draft) : FillsInOrder [] filled [] filled
  | cons {filled next last : draft} {field : FieldReader draft} {fields : List (FieldReader draft)}
      {item : List Char} {items : List (List Char)}
      (h : IsSpaced (Reads (field.read filled) · next) item)
      (hrest : FillsInOrder fields next items last) :
      FillsInOrder (field :: fields) filled (item :: items) last

/-- A member is read behind its key. -/
private theorem Takes.readMember_eq (h : shape.Takes filled member next) (htail : Follows tail) :
    ∃ key value : Slot, ∃ name, member = memberText key value ∧ key.Spaced ∧ value.Spaced ∧
      Spells key.part name ∧
      shape.readMember name filled (key.back ++ ':' :: (value.text ++ tail)) =
        .ok (next, value.back ++ tail) := by
  cases h with
  | @field _ name key value field hkey hname hvalue hfind hfree hread =>
    refine ⟨key, value, name, rfl, hkey, hvalue, hname, ?_⟩
    have hbehind := follows_append hvalue.back htail
    rw [readMember, hfind]
    dsimp only
    rw [hfree, if_neg Bool.false_ne_true, skipSpace_append_cons hkey.back rfl, value.text_append]
    refine (bind_eq_of_eq_ok rfl).trans ?_
    exact hread.read_eq value.front _ hvalue.front hbehind
  | @foreign name key value hkey hname hvalue hfind hjson =>
    refine ⟨key, value, name, rfl, hkey, hvalue, hname, ?_⟩
    have hskip := hjson.skipValue_append hvalue.front (follows_append hvalue.back htail)
    rw [readMember, hfind]
    dsimp only
    rw [skipSpace_append_cons hkey.back rfl, value.text_append]
    refine (bind_eq_of_eq_ok rfl).trans ?_
    exact bind_eq_of_eq_ok hskip

theorem Takes.ne_nil (h : shape.Takes filled member next) : member ≠ [] := by
  cases h <;> simp [memberText]

private theorem Takes.readMembers_of_starts (h : shape.Takes filled member next)
    (htail : Follows tail)
    {first : Bool} {start : List Char} (hstart : Starts first (member ++ tail) start) :
    ∃ back, IsGap back ∧ ∀ c bound, shape.readMembers (c :: bound) first filled start =
      shape.readMembers bound false next (back ++ tail) := by
  obtain ⟨key, value, name, rfl, hkey, hvalue, ⟨units, hunits, hpart⟩, hmember⟩ :=
    h.readMember_eq htail
  refine ⟨value.back, hvalue.back, fun c bound => ?_⟩
  have htext : memberText key value ++ tail = key.front ++ '"' :: (units.flatten ++
      '"' :: (key.back ++ ':' :: (value.text ++ tail))) := by
    simp only [memberText, Slot.text, hpart, List.append_assoc, List.cons_append, List.nil_append]
  rw [htext] at hstart
  rw [readMembers]
  refine (bind_eq_of_eq_ok (nextKey_of_starts hkey.front hstart)).trans ?_
  refine (bind_eq_of_eq_ok (readString_flatten hunits _)).trans ?_
  exact bind_eq_of_eq_ok hmember

private theorem follows_members (members : List (List Char)) (hgap : IsGap gap) (rest : List Char) :
    Follows (members.flatMap (',' :: ·) ++ (gap ++ '\x7d' :: rest)) :=
  follows_flatMap _ members hgap Bracket.object.follows_closing rest

private theorem Fills.readMembers_flatMap (h : shape.Fills filled members last) (hgap : IsGap gap)
    (rest : List Char) {bound before : List Char} (hbefore : IsGap before)
    (hbound : members.length < bound.length) :
    shape.readMembers bound false filled
        (before ++ (members.flatMap (',' :: ·) ++ (gap ++ '\x7d' :: rest))) =
      .ok (last, rest) := by
  induction h generalizing bound before with
  | nil =>
    cases bound with
    | nil => cases hbound
    | cons c bound =>
      rw [List.flatMap_nil, List.nil_append, ← List.append_assoc, readMembers]
      exact bind_eq_of_eq_ok (nextKey_closing false (isGap_append hbefore hgap) rest)
  | @cons filled next last member members hmember _ ih =>
    cases bound with
    | nil => cases hbound
    | cons c bound =>
      rw [List.flatMap_cons, List.append_assoc, List.cons_append]
      obtain ⟨back, hback, hread⟩ := hmember.readMembers_of_starts
        (follows_members members hgap rest) (.comma hbefore _)
      rw [hread]
      exact ih hback (Nat.lt_of_succ_lt_succ hbound)

/-- The members of an object are read up to its end. -/
private theorem Fills.readMembers_separated (h : shape.Fills filled members last) (hgap : IsGap gap)
    (rest : List Char) {bound : List Char} (hbound : members.length < bound.length) :
    shape.readMembers bound true filled (separated members ++ (gap ++ '\x7d' :: rest)) =
      .ok (last, rest) := by
  cases bound with
  | nil => cases hbound
  | cons c bound =>
    cases h with
    | nil =>
      rw [readMembers]
      exact bind_eq_of_eq_ok (nextKey_closing true hgap rest)
    | @cons _ next _ member members hmember hmembers =>
      rw [separated_cons, List.append_assoc]
      obtain ⟨back, hback, hread⟩ := hmember.readMembers_of_starts
        (follows_members members hgap rest) (.first _)
      rw [hread]
      exact hmembers.readMembers_flatMap hgap rest hback (Nat.lt_of_succ_lt_succ hbound)

theorem Fills.ne_nil (h : shape.Fills filled members last) : ∀ member ∈ members, member ≠ [] := by
  induction h with
  | nil => exact fun _ hmem => absurd hmem List.not_mem_nil
  | cons hmember _ ih => exact List.forall_mem_cons.mpr ⟨hmember.ne_nil, ih⟩

/-- A record is read from an object if the members fill its draft. -/
theorem reads_objectText {value : record} (h : shape.Fills shape.blank members last)
    (hfinish : shape.finish last = .ok value) (hgap : IsGap gap) :
    Reads shape.read (objectText members gap) value where
  begins := ⟨'\x7b', _, rfl, rfl, by decide⟩
  read_eq before rest hbefore _ := by
    have hlength := length_le_separated h.ne_nil
    have hbound : members.length < (separated members ++ (gap ++ '\x7d' :: rest)).length := by
      simp only [List.length_append, List.length_cons]
      omega
    have hmembers := h.readMembers_separated hgap rest hbound
    rw [objectText, List.cons_append, List.append_assoc, List.append_assoc, List.singleton_append,
      read, skipSpace_append_cons hbefore rfl]
    dsimp only
    rw [if_pos rfl]
    refine (bind_eq_of_eq_ok hmembers).trans ?_
    exact bind_eq_of_eq_ok hfinish

/-- The value of the next field is read where it stands. -/
theorem readFields_of_starts (shape : Shape draft record) {field : FieldReader draft}
    (fields : List (FieldReader draft)) {item : List Char}
    (h : IsSpaced (Reads (field.read filled) · next) item) (htail : Follows tail) (position : Nat)
    {start : List Char} (hstart : Starts (position == 0) (item ++ tail) start) :
    ∃ back, IsGap back ∧ shape.readFields (field :: fields) position filled start =
      shape.readFields fields (position + 1) next (back ++ tail) := by
  obtain ⟨slot, hspaced, hread, rfl⟩ := h
  refine ⟨slot.back, hspaced.back, ?_⟩
  have hvalue := hread.read_eq [] (slot.back ++ tail) isGap_nil (follows_append hspaced.back htail)
  rw [List.nil_append] at hvalue
  rw [readFields]
  refine (bind_eq_of_eq_ok (nextItem_of_starts hspaced hread.begins hstart)).trans ?_
  exact bind_eq_of_eq_ok hvalue

private theorem FillsInOrder.readFields_flatMap (h : FillsInOrder fields filled items last)
    (hgap : IsGap gap) (rest : List Char) (position : Nat) {before : List Char}
    (hbefore : IsGap before) :
    shape.readFields fields (position + 1) filled
        (before ++ (items.flatMap (',' :: ·) ++ (gap ++ ']' :: rest))) =
      .ok (last, rest) := by
  induction h generalizing position before with
  | nil =>
    rw [List.flatMap_nil, List.nil_append, ← List.append_assoc, readFields,
      skipSpace_append_cons (isGap_append hbefore hgap) rfl]
    rfl
  | @cons filled next last field fields item items hitem _ ih =>
    rw [List.flatMap_cons, List.append_assoc, List.cons_append]
    obtain ⟨back, hback, hread⟩ := shape.readFields_of_starts fields hitem
      (follows_items items hgap rest) (position + 1) (.comma hbefore _)
    rw [hread]
    exact ih (position + 1) hback

/-- The values of the fields are read up to the end of the array. -/
private theorem FillsInOrder.readFields_separated (h : FillsInOrder fields filled items last)
    (hgap : IsGap gap) (rest : List Char) :
    shape.readFields fields 0 filled (separated items ++ (gap ++ ']' :: rest)) =
      .ok (last, rest) := by
  cases h with
  | nil =>
    have hclosing : skipSpace (gap ++ ']' :: rest) = ']' :: rest :=
      skipSpace_append_cons hgap rfl rest
    exact (bind_eq_of_eq_ok (congrArg (readExact ']') hclosing)).trans rfl
  | @cons _ next _ field fields item items hitem hitems =>
    rw [separated_cons, List.append_assoc]
    obtain ⟨back, hback, hread⟩ := shape.readFields_of_starts fields hitem
      (follows_items items hgap rest) 0 (.first _)
    rw [hread]
    exact hitems.readFields_flatMap hgap rest 0 hback

/-- A record is read from an array of the values of its fields. -/
theorem reads_arrayText {value : record} (h : FillsInOrder shape.fields shape.blank items last)
    (hfinish : shape.finish last = .ok value) (hgap : IsGap gap) :
    Reads shape.read (arrayText items gap) value where
  begins := ⟨'[', _, rfl, rfl, by decide⟩
  read_eq before rest hbefore _ := by
    have hfields : shape.readFields shape.fields 0 shape.blank
        (separated items ++ (gap ++ ']' :: rest)) = .ok (last, rest) :=
      h.readFields_separated hgap rest
    rw [arrayText, List.cons_append, List.append_assoc, List.append_assoc, List.singleton_append,
      read, skipSpace_append_cons hbefore rfl]
    dsimp only
    rw [if_neg (by decide), if_pos rfl]
    refine (bind_eq_of_eq_ok hfields).trans ?_
    exact bind_eq_of_eq_ok hfinish

end Shape

/-- A text that holds a value and white space around it is read as that value. -/
theorem readDocument_eq {α : Type} {read : Reader α} {text : List Char} {value : α}
    (h : IsSpaced (Reads read · value) text) : readDocument read text = .ok value := by
  obtain ⟨slot, hspaced, hread, rfl⟩ := h
  have hnothing : Follows [] := trivial
  have hvalue := hread.read_eq slot.front (slot.back ++ []) hspaced.front
    (follows_append hspaced.back hnothing)
  have hend : skipSpace (slot.back ++ []) = [] := by
    rw [skipSpace_append hspaced.back]
    rfl
  rw [← slot.text_append, List.append_nil] at hvalue
  refine (bind_eq_of_eq_ok hvalue).trans ?_
  dsimp only
  rw [hend]
  rfl

end Assembler.Json
