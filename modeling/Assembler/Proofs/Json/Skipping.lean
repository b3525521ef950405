import Assembler.Proofs.Json.Quoted

/-!
# Values that are passed over

All of JSON is passed over where nobody asked for it: words, numbers of any size, strings that stand
for nothing, arrays and objects nested to any depth, with white space between their parts.

The brackets that are open are kept in a list, so what is said here of a value is said inside any
open brackets.  Each round takes at least one character from the text and one from the bound, and
the bound is never shorter than the text.

## Main definitions

* `IsJson` : the well-formed values.
* `Skips` : a text is passed over inside any brackets.

## Main results

* `IsValue.isJson` : values without white space are well formed.
* `skips_bracket` : an array or an object is passed over if its parts are.
* `IsJson.skipValue_append` : every well-formed value is passed over, and nothing behind it.
-/

namespace Assembler.Json

/-- The well-formed values, with white space between their parts. -/
inductive IsJson : List Char → Prop
  | null : IsJson ['n', 'u', 'l', 'l']
  | true : IsJson ['t', 'r', 'u', 'e']
  | false : IsJson ['f', 'a', 'l', 's', 'e']
  | number {numeral : Numeral} {text : List Char} (h : IsNumber numeral text) : IsJson text
  | string {text : List Char} (h : IsString text) : IsJson text
  | array {items : List Slot} {gap : List Char} (hspaced : ∀ item ∈ items, item.Spaced)
      (hvalues : ∀ item ∈ items, IsJson item.part) (hgap : IsGap gap) :
      IsJson (arrayText (items.map Slot.text) gap)
  | object {members : List (Slot × Slot)} {gap : List Char}
      (hkeys : ∀ member ∈ members, member.1.Spaced ∧ IsString member.1.part)
      (hspaced : ∀ member ∈ members, member.2.Spaced)
      (hvalues : ∀ member ∈ members, IsJson member.2.part) (hgap : IsGap gap) :
      IsJson (objectText (members.map fun (key, value) => memberText key value) gap)

/-- Values without white space are well formed. -/
theorem IsValue.isJson {text : List Char} (h : IsValue text) : IsJson text := by
  induction h with
  | null => exact .null
  | natural h => exact .number (isNumber_of_isWhole h)
  | string h => exact .string h
  | array items _ ih =>
    have harray := @IsJson.array (items.map .plain) [] (List.forall_mem_map.mpr fun item _ =>
      .plain item) (List.forall_mem_map.mpr ih) isGap_nil
    have hitems : items.map (Slot.text ∘ Slot.plain) = items :=
      (List.map_congr_left fun item _ => Slot.text_plain item).trans (List.map_id' items)
    rw [List.map_map, hitems] at harray
    exact harray
  | object members hkey _ ih =>
    have hobject := @IsJson.object
      (members.map fun member : List Char × List Char => (.plain member.1, .plain member.2)) []
      (List.forall_mem_map.mpr fun member hmem => ⟨.plain member.1, hkey member hmem⟩)
      (List.forall_mem_map.mpr fun member _ => .plain member.2) (List.forall_mem_map.mpr ih)
      isGap_nil
    rw [List.map_map] at hobject
    refine (congrArg (fun texts => IsJson (objectText texts []))
      (List.map_congr_left fun member _ => ?_)).mp hobject
    simp [memberText]

/-- A text is passed over where a value is due, inside any open brackets.  What is left of the bound
is not shorter than what is left of the text. -/
def Skips (text : List Char) : Prop :=
  ∀ bound opened gap rest, IsGap gap → Follows rest → (text ++ rest).length ≤ bound.length →
    ∃ left : List Char, rest.length ≤ left.length ∧
      skipOpen bound opened Bool.true (gap ++ (text ++ rest)) =
        skipOpen left opened Bool.false rest

namespace Bracket

/-- The character that opens a bracket. -/
def opening : Bracket → Char
  | array => '['
  | object => '\x7b'

/-- The character that closes a bracket. -/
def closing : Bracket → Char
  | array => ']'
  | object => '\x7d'

/-- What stands in front of a value inside a bracket: nothing, or the key and the colon of a
member. -/
inductive Leads : Bracket → List Char → Prop
  | array : Leads array []
  | object {key : Slot} (hspaced : key.Spaced) (hkey : IsString key.part) :
      Leads object (key.text ++ [':'])

/-- A value inside a bracket, with what leads it, that is passed over. -/
structure SkipsPart (bracket : Bracket) (part : List Char × Slot) : Prop where
  leads : bracket.Leads part.1
  spaced : part.2.Spaced
  begins : Begins part.2.part
  skips : Skips part.2.part

end Bracket

variable {bracket : Bracket} {lead gap rest : List Char} {slot : Slot}

theorem Bracket.follows_closing (bracket : Bracket) : Follows [bracket.closing] := by
  cases bracket with
  | array => exact .inr (.inr (.inl rfl))
  | object => exact .inr (.inr (.inr rfl))

/-! ### Scalars -/

private theorem skipOpen_due {c : Char} {text : List Char} (h : skipSpace text = c :: rest)
    (first : Char) (bound : List Char) (opened : List Bracket) :
    skipOpen (first :: bound) opened true text =
      if c = '[' ∨ c = '\x7b' then
        match skipOpening c rest with
        | .error failure => .error failure
        | .ok (none, rest) => skipOpen bound opened false rest
        | .ok (some bracket, rest) => skipOpen bound (bracket :: opened) true rest
      else
        match skipScalar c rest with
        | .error failure => .error failure
        | .ok rest => skipOpen bound opened false rest := by
  rw [skipOpen]
  generalize skipSpace text = spaceless at h
  subst h
  rfl

/-- A value without parts is passed over in one round. -/
theorem skips_of_skipScalar {c : Char} {more : List Char} (hspace : isSpace c = false)
    (hopening : ¬(c = '[' ∨ c = '\x7b'))
    (h : ∀ rest, Follows rest → skipScalar c (more ++ rest) = .ok rest) : Skips (c :: more) := by
  intro bound opened gap rest hgap hrest hbound
  cases bound with
  | nil => cases hbound
  | cons first bound =>
    rw [List.cons_append, List.length_cons, List.length_cons, List.length_append] at hbound
    refine ⟨bound, by omega, ?_⟩
    rw [List.cons_append, skipOpen_due (skipSpace_append_cons hgap hspace _), if_neg hopening,
      h rest hrest]

theorem isSpace_of_isDigit {c : Char} (h : c.isDigit = true) : isSpace c = false := by
  by_contra hspace
  rw [Bool.not_eq_false, isSpace] at hspace
  simp only [Bool.or_eq_true, beq_iff_eq] at hspace
  obtain ((rfl | rfl) | rfl) | rfl := hspace <;> cases h

/-- What begins a number begins no other value. -/
theorem ne_of_beginsNumber {c : Char} (h : beginsNumber c = true) :
    isSpace c = false ∧ ¬(c = '[' ∨ c = '\x7b') ∧ c ≠ 'n' ∧ c ≠ 't' ∧ c ≠ 'f' ∧ c ≠ '"' := by
  rw [beginsNumber, Bool.or_eq_true, beq_iff_eq] at h
  obtain rfl | hdigit := h
  · decide
  · have hne : ∀ d : Char, d.isDigit = false → c ≠ d := by
      rintro d hd rfl
      rw [hd] at hdigit
      cases hdigit
    exact ⟨isSpace_of_isDigit hdigit, not_or.mpr ⟨hne _ rfl, hne _ rfl⟩, hne _ rfl, hne _ rfl,
      hne _ rfl, hne _ rfl⟩

private theorem skips_of_isNumber {numeral : Numeral} {text : List Char}
    (h : IsNumber numeral text) : Skips text := by
  obtain ⟨c, more, rfl, hbegins⟩ := h.exists_cons
  obtain ⟨hspace, hopening, hnull, htrue, hfalse, hquote⟩ := ne_of_beginsNumber hbegins
  refine skips_of_skipScalar hspace hopening fun rest hrest => ?_
  have hread := h.readNumeral_append .illFormed hrest
  rw [List.cons_append] at hread
  rw [skipScalar, if_neg hnull, if_neg htrue, if_neg hfalse, if_neg hquote, if_pos hbegins, hread]
  rfl

private theorem skips_of_isString {text : List Char} (h : IsString text) : Skips text := by
  obtain ⟨inner, rfl, hskip⟩ := h.skipString
  exact skips_of_skipScalar rfl (by decide) fun rest _ => hskip rest

/-! ### Brackets -/

theorem IsString.begins {text : List Char} (h : IsString text) : Begins text := by
  obtain ⟨inner, rfl, -⟩ := h.skipString
  exact ⟨'"', inner, rfl, rfl, by decide⟩

/-- The key of a member is passed over together with its colon. -/
theorem IsString.skipKey_append {key back : List Char} (h : IsString key) (hgap : IsGap gap)
    (hback : IsGap back) (rest : List Char) :
    skipKey (gap ++ (key ++ (back ++ ':' :: rest))) = .ok rest := by
  have hcolon : skipSpace (back ++ ':' :: rest) = ':' :: rest :=
    skipSpace_append_cons hback rfl rest
  rw [skipKey, h.begins.skipSpace hgap]
  obtain ⟨inner, rfl, hskip⟩ := h.skipString
  refine (bind_eq_of_eq_ok rfl).trans ?_
  refine (bind_eq_of_eq_ok (hskip _)).trans ?_
  rw [hcolon]
  rfl

private theorem skipFollowing_append (bracket : Bracket) (hgap : IsGap gap) (text : List Char) :
    skipFollowing bracket (gap ++ text) = skipFollowing bracket text := by
  unfold skipFollowing
  rw [skipSpace_append hgap]

private theorem skipFollowing_closing (bracket : Bracket) (hgap : IsGap gap) (rest : List Char) :
    skipFollowing bracket (gap ++ bracket.closing :: rest) = .ok (false, rest) := by
  rw [skipFollowing_append bracket hgap]
  cases bracket <;> rfl

/-- Behind a comma stands what leads the next value. -/
private theorem Bracket.Leads.skipFollowing_comma (h : bracket.Leads lead) (hgap : IsGap gap)
    (rest : List Char) :
    skipFollowing bracket (gap ++ ',' :: (lead ++ rest)) = .ok (true, rest) := by
  rw [skipFollowing_append bracket hgap]
  cases h with
  | array => rfl
  | @object key hspaced hkey =>
    rw [List.append_assoc, key.text_append]
    change (skipKey (key.front ++ (key.part ++ (key.back ++ ':' :: rest)))).map _ = _
    rw [hkey.skipKey_append hspaced.front hspaced.back]
    rfl

private theorem skipOpening_closing (bracket : Bracket) (hgap : IsGap gap) (rest : List Char) :
    skipOpening bracket.opening (gap ++ bracket.closing :: rest) = .ok (none, rest) := by
  cases bracket with
  | array =>
    have hclosing : skipSpace (gap ++ ']' :: rest) = ']' :: rest :=
      skipSpace_append_cons hgap rfl rest
    rw [skipOpening, Bracket.opening, if_pos rfl, Bracket.closing, hclosing]
    rfl
  | object =>
    have hclosing : skipSpace (gap ++ '\x7d' :: rest) = '\x7d' :: rest :=
      skipSpace_append_cons hgap rfl rest
    rw [skipOpening, Bracket.opening, if_neg (by decide), Bracket.closing, hclosing]
    rfl

/-- Behind an opening bracket stands what leads the first value. -/
theorem Bracket.Leads.skipOpening (h : bracket.Leads lead) (hspaced : slot.Spaced)
    (hbegins : Begins slot.part) (rest : List Char) :
    ∃ gap, IsGap gap ∧ skipOpening bracket.opening (lead ++ (slot.text ++ rest)) =
      .ok (some bracket, gap ++ (slot.part ++ (slot.back ++ rest))) := by
  cases h with
  | array =>
    refine ⟨[], isGap_nil, ?_⟩
    rw [List.nil_append, List.nil_append, slot.text_append, Json.skipOpening, Bracket.opening,
      if_pos rfl, hbegins.skipSpace hspaced.front]
    obtain ⟨c, more, hpart, -, hclosing⟩ := hbegins
    rw [hpart, List.cons_append]
    split
    · rename_i heq
      exact absurd (List.cons.inj heq).1 hclosing
    · rfl
  | @object key hkeySpaced hkey =>
    refine ⟨slot.front, hspaced.front, ?_⟩
    have hskip := hkey.skipKey_append isGap_nil hkeySpaced.back (slot.text ++ rest)
    rw [List.nil_append] at hskip
    rw [List.append_assoc, List.singleton_append, ← slot.text_append, Json.skipOpening,
      Bracket.opening, if_neg (by decide), key.text_append,
      hkey.begins.skipSpace hkeySpaced.front]
    obtain ⟨inner, hpart, -⟩ := hkey.skipString
    rw [hpart, List.cons_append] at hskip ⊢
    change (skipKey _).map _ = _
    rw [hskip]
    rfl

/-- The values behind the first one are passed over up to the end of the bracket. -/
private theorem skipOpen_flatMap {parts : List (List Char × Slot)}
    (hparts : ∀ part ∈ parts, bracket.SkipsPart part) (hgap : IsGap gap) (opened : List Bracket)
    (rest : List Char) {bound before : List Char} (hbefore : IsGap before)
    (hbound : (parts.flatMap (fun part => ',' :: (part.1 ++ part.2.text)) ++
      (gap ++ bracket.closing :: rest)).length ≤ bound.length) :
    ∃ left : List Char, rest.length ≤ left.length ∧
      skipOpen bound (bracket :: opened) false
          (before ++ (parts.flatMap (fun part => ',' :: (part.1 ++ part.2.text)) ++
            (gap ++ bracket.closing :: rest))) =
        skipOpen left opened false rest := by
  induction parts generalizing bound before with
  | nil =>
    rw [List.flatMap_nil, List.nil_append, List.length_append, List.length_cons] at hbound
    cases bound with
    | nil => simp at hbound
    | cons first bound =>
      have hclosing : skipFollowing bracket (before ++ (gap ++ bracket.closing :: rest)) =
          .ok (false, rest) := by
        rw [skipFollowing_append bracket hbefore]
        exact skipFollowing_closing bracket hgap rest
      rw [List.length_cons] at hbound
      refine ⟨bound, by omega, ?_⟩
      rw [List.flatMap_nil, List.nil_append, skipOpen, hclosing]
  | cons part parts ih =>
    obtain ⟨hleads, hspaced, -, hskips⟩ := hparts part List.mem_cons_self
    obtain ⟨lead, slot⟩ := part
    have hfollows := follows_flatMap (fun part : List Char × Slot => part.1 ++ part.2.text) parts
      hgap bracket.follows_closing rest
    replace ih := @ih fun other hother => hparts other (List.mem_cons_of_mem _ hother)
    rw [List.flatMap_cons, List.append_assoc, List.cons_append, List.append_assoc] at hbound ⊢
    generalize parts.flatMap (fun part => ',' :: (part.1 ++ part.2.text)) ++
      (gap ++ bracket.closing :: rest) = tail at hfollows hbound ih ⊢
    cases bound with
    | nil => cases hbound
    | cons first bound =>
      simp only [List.length_cons, List.length_append, slot.text_append] at hbound
      obtain ⟨between, hbetween, hvalue⟩ := hskips bound (bracket :: opened) slot.front
        (slot.back ++ tail) hspaced.front (follows_append hspaced.back hfollows)
        (by simp only [List.length_append]; omega)
      rw [List.length_append] at hbetween
      obtain ⟨left, hleft, hend⟩ := @ih between slot.back hspaced.back (by omega)
      refine ⟨left, hleft, ?_⟩
      rw [skipOpen, hleads.skipFollowing_comma hbefore]
      dsimp only
      rw [slot.text_append, hvalue, hend]

/-- Behind an opening bracket its values are passed over up to the end of the bracket. -/
private theorem skipOpen_opening {parts : List (List Char × Slot)}
    (hparts : ∀ part ∈ parts, bracket.SkipsPart part) (hgap : IsGap gap) (opened : List Bracket)
    (rest : List Char) {bound before : List Char} (hbefore : IsGap before) (first : Char)
    (hbound : (separated (parts.map fun part => part.1 ++ part.2.text) ++
      (gap ++ bracket.closing :: rest)).length ≤ bound.length) :
    ∃ left : List Char, rest.length ≤ left.length ∧
      skipOpen (first :: bound) opened true (before ++ bracket.opening ::
          (separated (parts.map fun part => part.1 ++ part.2.text) ++
            (gap ++ bracket.closing :: rest))) =
        skipOpen left opened false rest := by
  have hopening : isSpace bracket.opening = false ∧
      (bracket.opening = '[' ∨ bracket.opening = '\x7b') := by
    cases bracket <;> decide
  rw [skipOpen_due (skipSpace_append_cons hbefore hopening.1 _), if_pos hopening.2]
  cases parts with
  | nil =>
    have hnone : separated (([] : List (List Char × Slot)).map fun part =>
        part.1 ++ part.2.text) = [] := rfl
    rw [hnone, List.nil_append, List.length_append, List.length_cons] at hbound
    refine ⟨bound, by omega, ?_⟩
    rw [hnone, List.nil_append, skipOpening_closing bracket hgap rest]
  | cons part parts =>
    obtain ⟨hleads, hspaced, hbegins, hskips⟩ := hparts part List.mem_cons_self
    obtain ⟨lead, slot⟩ := part
    have hfollows := follows_flatMap (fun part : List Char × Slot => part.1 ++ part.2.text) parts
      hgap bracket.follows_closing rest
    have htail := @skipOpen_flatMap bracket gap parts
      (fun other hother => hparts other (List.mem_cons_of_mem _ hother)) hgap opened rest
    rw [List.map_cons, separated_cons, List.flatMap_map, List.append_assoc, List.append_assoc]
      at hbound ⊢
    generalize parts.flatMap (fun part => ',' :: (part.1 ++ part.2.text)) ++
      (gap ++ bracket.closing :: rest) = tail at hfollows htail hbound ⊢
    simp only [List.length_append, slot.text_append] at hbound
    obtain ⟨front, hfront, hopen⟩ := hleads.skipOpening hspaced hbegins tail
    obtain ⟨between, hbetween, hvalue⟩ := hskips bound (bracket :: opened) front
      (slot.back ++ tail) hfront (follows_append hspaced.back hfollows)
      (by simp only [List.length_append]; omega)
    rw [List.length_append] at hbetween
    obtain ⟨left, hleft, hend⟩ := @htail between slot.back hspaced.back (by omega)
    refine ⟨left, hleft, ?_⟩
    rw [hopen]
    dsimp only
    rw [hvalue, hend]

/-- An array or an object is passed over if its parts are. -/
theorem skips_bracket {parts : List (List Char × Slot)}
    (hparts : ∀ part ∈ parts, bracket.SkipsPart part) (hgap : IsGap gap) :
    Skips (bracket.opening ::
      (separated (parts.map fun part => part.1 ++ part.2.text) ++ (gap ++ [bracket.closing]))) := by
  intro bound opened before rest hbefore _ hbound
  rw [List.cons_append, List.append_assoc, List.append_assoc, List.singleton_append] at hbound ⊢
  cases bound with
  | nil => cases hbound
  | cons first bound =>
    exact skipOpen_opening hparts hgap opened rest hbefore first (Nat.le_of_succ_le_succ hbound)

/-! ### All values -/

theorem IsJson.begins {text : List Char} (h : IsJson text) : Begins text := by
  cases h with
  | null => exact ⟨'n', _, rfl, rfl, by decide⟩
  | true => exact ⟨'t', _, rfl, rfl, by decide⟩
  | false => exact ⟨'f', _, rfl, rfl, by decide⟩
  | number h =>
    obtain ⟨c, more, rfl, hbegins⟩ := h.exists_cons
    refine ⟨c, more, rfl, (ne_of_beginsNumber hbegins).1, ?_⟩
    rintro rfl
    cases hbegins
  | string h => exact h.begins
  | array => exact ⟨'[', _, rfl, rfl, by decide⟩
  | object => exact ⟨'\x7b', _, rfl, rfl, by decide⟩

/-- Every well-formed value is passed over inside any brackets. -/
theorem IsJson.skips {text : List Char} (h : IsJson text) : Skips text := by
  induction h with
  | null => exact skips_of_skipScalar rfl (by decide) fun rest _ => rfl
  | true => exact skips_of_skipScalar rfl (by decide) fun rest _ => rfl
  | false => exact skips_of_skipScalar rfl (by decide) fun rest _ => rfl
  | number h => exact skips_of_isNumber h
  | string h => exact skips_of_isString h
  | @array items gap hspaced hvalues hgap ih =>
    have hskips := @skips_bracket .array gap (items.map fun item => ([], item)) ?_ hgap
    · rw [List.map_map] at hskips
      exact hskips
    · intro part hpart
      obtain ⟨item, hitem, rfl⟩ := List.mem_map.mp hpart
      exact ⟨.array, hspaced item hitem, (hvalues item hitem).begins, ih item hitem⟩
  | @object members gap hkeys hspaced hvalues hgap ih =>
    have hskips := @skips_bracket .object gap
      (members.map fun member => (member.1.text ++ [':'], member.2)) ?_ hgap
    · rw [List.map_map] at hskips
      have hmembers : members.map ((fun part : List Char × Slot => part.1 ++ part.2.text) ∘
          fun member => (member.1.text ++ [':'], member.2)) =
          members.map fun (key, value) => memberText key value :=
        List.map_congr_left fun member _ => List.append_assoc _ _ _
      rw [hmembers] at hskips
      exact hskips
    · intro part hpart
      obtain ⟨member, hmember, rfl⟩ := List.mem_map.mp hpart
      exact ⟨.object (hkeys member hmember).1 (hkeys member hmember).2, hspaced member hmember,
        (hvalues member hmember).begins, ih member hmember⟩

/-- A well-formed value is passed over, and nothing behind it. -/
theorem IsJson.skipValue_append {text : List Char} (h : IsJson text) (hgap : IsGap gap)
    (hrest : Follows rest) : skipValue (gap ++ (text ++ rest)) = .ok rest := by
  obtain ⟨left, -, hskip⟩ := h.skips (gap ++ (text ++ rest)) [] gap rest hgap hrest
    (by simp only [List.length_append]; omega)
  rw [skipValue, hskip, skipOpen]

end Assembler.Json
