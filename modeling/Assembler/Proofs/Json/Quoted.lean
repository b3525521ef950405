import Assembler.Proofs.Json.Numeral

/-!
# How strings are written

Every character but a few may stand for itself inside a string, and every character may be escaped:
by a letter, if there is one for it, by its number, or by the numbers of the two UTF-16 units that
it takes.  However a string is written, it is read to its closing quotation mark as the characters
that its parts stand for.

A string that nobody asked for is passed over, even if it has parts that stand for no character.

## Main definitions

* `IsHex` : the digits of a UTF-16 unit.
* `StandsFor`, `Spells` : the texts of a character inside a string, and those of a string.

## Main results

* `readString_flatten` : a string is read however it is written.
* `spells_writeString` : what is written for a string spells it.
* `IsString.skipString` : every string is passed over.
-/

namespace Assembler.Json

/-- The four digits of a UTF-16 unit. -/
inductive IsHex : List Char → Nat → Prop
  | digits {a b c d : Char} {i j k l : Nat} (ha : hexDigit? a = some i) (hb : hexDigit? b = some j)
      (hc : hexDigit? c = some k) (hd : hexDigit? d = some l) :
      IsHex [a, b, c, d] (((i * 16 + j) * 16 + k) * 16 + l)

/-- The texts that stand for a character inside a string. -/
inductive StandsFor : List Char → Char → Prop
  | plain {c : Char} (hcontrol : 0x20 ≤ c.toNat) (hquote : c ≠ '"') (hbackslash : c ≠ '\\') :
      StandsFor [c] c
  | letter {letter c : Char} (h : escaped? letter = some c) : StandsFor ['\\', letter] c
  | number {digits : List Char} {c : Char} (h : IsHex digits c.toNat) :
      StandsFor ('\\' :: 'u' :: digits) c
  /-- A character beyond U+FFFF takes two units. -/
  | pair {leading trailing : List Char} {c : Char} (hlarge : 0x10000 ≤ c.toNat)
      (hleading : IsHex leading (0xD800 + (c.toNat - 0x10000) / 0x400))
      (htrailing : IsHex trailing (0xDC00 + (c.toNat - 0x10000) % 0x400)) :
      StandsFor ('\\' :: 'u' :: (leading ++ '\\' :: 'u' :: trailing)) c

/-- The texts of a string: those of its characters between quotation marks. -/
def Spells (text : List Char) (value : String) : Prop :=
  ∃ units, List.Forall₂ StandsFor units value.toList ∧ text = '"' :: (units.flatten ++ ['"'])

/-! ### Units by number -/

private theorem four_le_leadingBytes (a b c d : Char) (rest : List Char) :
    4 ≤ leadingBytes (a :: b :: c :: d :: rest) := by
  have ha := a.utf8Size_pos
  have hb := b.utf8Size_pos
  have hc := c.utf8Size_pos
  have hd := d.utf8Size_pos
  simp only [leadingBytes, List.take_succ_cons, List.take_zero, List.foldl_cons, List.foldl_nil]
  omega

private theorem IsHex.readUnit_append {digits : List Char} {n : Nat} (h : IsHex digits n)
    (rest : List Char) : readUnit (digits ++ rest) = .ok (n, rest) := by
  obtain ⟨ha, hb, hc, hd⟩ := h
  simp only [List.cons_append, List.nil_append]
  rw [readUnit, if_neg (Nat.not_lt.mpr (four_le_leadingBytes _ _ _ _ rest))]
  simp only [ha, hb, hc, hd]

/-- No character is half of a pair. -/
private theorem not_isHalf (c : Char) :
    isLeading c.toNat = false ∧ isTrailing c.toNat = false := by
  have hvalid : c.toNat < 0xD800 ∨ 0xDFFF < c.toNat ∧ c.toNat < 0x110000 := c.valid
  simp only [isLeading, isTrailing, Bool.and_eq_false_iff, decide_eq_false_iff_not]
  omega

/-- A unit that is not half of a pair is read as its character. -/
private theorem readCodePoint_of_isHex {digits : List Char} {c : Char} (h : IsHex digits c.toNat)
    (rest : List Char) : readCodePoint (digits ++ rest) = .ok (c, rest) := by
  obtain ⟨hleading, htrailing⟩ := not_isHalf c
  rw [readCodePoint]
  refine (bind_eq_of_eq_ok (h.readUnit_append rest)).trans ?_
  dsimp only
  rw [hleading, htrailing, if_neg Bool.false_ne_true, if_neg Bool.false_ne_true, Char.ofNat_toNat]
  rfl

/-- Two units are read as the character that they make up. -/
private theorem readCodePoint_of_pair {leading trailing : List Char} {c : Char}
    (hlarge : 0x10000 ≤ c.toNat) (hleading : IsHex leading (0xD800 + (c.toNat - 0x10000) / 0x400))
    (htrailing : IsHex trailing (0xDC00 + (c.toNat - 0x10000) % 0x400)) (rest : List Char) :
    readCodePoint (leading ++ '\\' :: 'u' :: trailing ++ rest) = .ok (c, rest) := by
  have hvalid : c.toNat < 0xD800 ∨ 0xDFFF < c.toNat ∧ c.toNat < 0x110000 := c.valid
  have hfirst : isLeading (0xD800 + (c.toNat - 0x10000) / 0x400) = true := by
    simp only [isLeading, Bool.and_eq_true, decide_eq_true_eq]
    omega
  have hsecond : isTrailing (0xDC00 + (c.toNat - 0x10000) % 0x400) = true := by
    simp only [isTrailing, Bool.and_eq_true, decide_eq_true_eq]
    omega
  have hvalue : (0xD800 + (c.toNat - 0x10000) / 0x400 - 0xD800) * 0x400 +
      (0xDC00 + (c.toNat - 0x10000) % 0x400 - 0xDC00) + 0x10000 = c.toNat := by
    omega
  rw [List.append_assoc, readCodePoint]
  refine (bind_eq_of_eq_ok (hleading.readUnit_append _)).trans ?_
  dsimp only
  rw [if_pos hfirst, readPair]
  refine (bind_eq_of_eq_ok rfl).trans ?_
  refine (bind_eq_of_eq_ok rfl).trans ?_
  refine (bind_eq_of_eq_ok (htrailing.readUnit_append rest)).trans ?_
  dsimp only
  rw [if_pos hsecond, hvalue, Char.ofNat_toNat]
  rfl

/-! ### Strings that are read -/

/-- A character is read from each of its texts. -/
private theorem StandsFor.readChar_append {unit : List Char} {c : Char} (h : StandsFor unit c)
    (rest : List Char) : readChar (unit ++ rest) = .ok (some c, rest) := by
  cases h with
  | plain hcontrol hquote hbackslash =>
    rw [List.singleton_append, readChar, if_neg hquote, if_neg hbackslash,
      if_neg (Nat.not_lt.mpr hcontrol)]
  | @letter letter _ h =>
    have hletter : letter ≠ 'u' := by
      rintro rfl
      cases h
    change (readEscape (letter :: rest)).map _ = _
    rw [readEscape, if_neg hletter, h]
    rfl
  | @number digits _ h =>
    change (readCodePoint (digits ++ rest)).map _ = _
    rw [readCodePoint_of_isHex h]
    rfl
  | @pair leading trailing _ hlarge hleading htrailing =>
    change (readCodePoint (leading ++ '\\' :: 'u' :: trailing ++ rest)).map _ = _
    rw [readCodePoint_of_pair hlarge hleading htrailing]
    rfl

private theorem readChars_flatten {units : List (List Char)} {chars : List Char}
    (h : List.Forall₂ StandsFor units chars) (rest : List Char) {bound : List Char}
    (hbound : units.length < bound.length) :
    readChars bound (units.flatten ++ '"' :: rest) = .ok (chars, rest) := by
  induction h generalizing bound with
  | nil =>
    cases bound with
    | nil => cases hbound
    | cons _ bound => rfl
  | @cons unit c units chars hunit _ ih =>
    cases bound with
    | nil => cases hbound
    | cons _ bound =>
      rw [readChars, List.flatten_cons, List.append_assoc]
      refine (bind_eq_of_eq_ok (hunit.readChar_append _)).trans ?_
      exact bind_eq_of_eq_ok (ih (Nat.lt_of_succ_lt_succ hbound))

theorem StandsFor.ne_nil {unit : List Char} {c : Char} (h : StandsFor unit c) : unit ≠ [] := by
  cases h <;> exact List.cons_ne_nil _ _

/-- A string is read from behind its opening quotation mark, however it is written. -/
theorem readString_flatten {units : List (List Char)} {value : String}
    (h : List.Forall₂ StandsFor units value.toList) (rest : List Char) :
    readString (units.flatten ++ '"' :: rest) = .ok (value, rest) := by
  have hlength := length_le_flatMap (forall_of_forall₂ h fun _ _ hunit => hunit.ne_nil)
  rw [List.flatMap_id'] at hlength
  rw [readString, readChars_flatten h]
  · exact congrArg (fun text => Except.ok (text, rest)) (String.ofList_toList)
  · rw [List.length_append, List.length_cons]
    omega

/-! ### Strings that are written -/

/-- What is written for a character stands for it. -/
private theorem standsFor_escape (c : Char) : StandsFor (escape c) c := by
  rw [escape]
  split_ifs with hquote hbackslash hback htab hline hform hreturn hcontrol
  · exact .letter (by rw [hquote]; rfl)
  · exact .letter (by rw [hbackslash]; rfl)
  · exact .letter (by rw [hback]; rfl)
  · exact .letter (by rw [htab]; rfl)
  · exact .letter (by rw [hline]; rfl)
  · exact .letter (by rw [hform]; rfl)
  · exact .letter (by rw [hreturn]; rfl)
  · have hzero : hexDigit? '0' = some 0 := rfl
    have hhex := IsHex.digits hzero hzero (hexDigit?_digitChar (n := c.toNat / 16) (by omega))
      (hexDigit?_digitChar (n := c.toNat % 16) (by omega))
    have hvalue : ((0 * 16 + 0) * 16 + c.toNat / 16) * 16 + c.toNat % 16 = c.toNat := by
      omega
    rw [hvalue] at hhex
    exact .number hhex
  · exact .plain (Nat.not_lt.mp hcontrol) hquote hbackslash

/-- What is written for a string spells it. -/
theorem spells_writeString (value : String) : Spells (writeString value) value := by
  refine ⟨value.toList.map escape, ?_, by rw [writeString, List.flatMap_def]⟩
  rw [List.forall₂_map_left_iff, List.forall₂_same]
  exact fun c _ => standsFor_escape c

/-! ### Strings that are passed over -/

private theorem exists_isHex {a b c d : Char}
    (h : ∀ digit ∈ [a, b, c, d], (hexDigit? digit).isSome) : ∃ n, IsHex [a, b, c, d] n := by
  simp only [List.forall_mem_cons, Option.isSome_iff_exists] at h
  obtain ⟨⟨i, ha⟩, ⟨j, hb⟩, ⟨k, hc⟩, ⟨l, hd⟩, -⟩ := h
  exact ⟨_, .digits ha hb hc hd⟩

private theorem skipChars_escape {text rest : List Char} (h : skipEscape text = .ok rest)
    (first : Char) (bound : List Char) :
    skipChars (first :: bound) ('\\' :: text) = skipChars bound rest := by
  rw [skipChars, if_neg (by decide), if_pos rfl, h]

/-- A part of a string is passed over, whether it stands for a character or not. -/
private theorem IsUnit.skipChars_append {unit : List Char} (h : IsUnit unit) (first : Char)
    (bound rest : List Char) :
    skipChars (first :: bound) (unit ++ rest) = skipChars bound rest := by
  cases h with
  | plain hcontrol hquote hbackslash =>
    rw [List.singleton_append, skipChars, if_neg hquote, if_neg hbackslash,
      if_neg (Nat.not_lt.mpr hcontrol)]
  | @letter letter h =>
    have hletter : letter ≠ 'u' := by
      rintro rfl
      cases h
    have hescape : skipEscape (letter :: rest) = .ok rest := by
      rw [skipEscape, if_neg hletter, if_pos h]
    exact skipChars_escape hescape first bound
  | @number a b c d h =>
    obtain ⟨n, hhex⟩ := exists_isHex h
    have hescape : skipEscape ('u' :: ([a, b, c, d] ++ rest)) = .ok rest := by
      rw [skipEscape, if_pos rfl, hhex.readUnit_append rest]
      rfl
    exact skipChars_escape hescape first bound

private theorem skipChars_flatten {units : List (List Char)} (h : ∀ unit ∈ units, IsUnit unit)
    (rest : List Char) {bound : List Char} (hbound : units.length < bound.length) :
    skipChars bound (units.flatten ++ '"' :: rest) = .ok rest := by
  induction units generalizing bound with
  | nil =>
    cases bound with
    | nil => cases hbound
    | cons _ bound => rfl
  | cons unit units ih =>
    cases bound with
    | nil => cases hbound
    | cons first bound =>
      rw [List.flatten_cons, List.append_assoc,
        (h unit List.mem_cons_self).skipChars_append first bound]
      exact ih (fun other hother => h other (List.mem_cons_of_mem _ hother))
        (Nat.lt_of_succ_lt_succ hbound)

theorem IsUnit.ne_nil {unit : List Char} (h : IsUnit unit) : unit ≠ [] := by
  cases h <;> exact List.cons_ne_nil _ _

/-- Every string is passed over, from behind its opening quotation mark. -/
theorem IsString.skipString {text : List Char} (h : IsString text) :
    ∃ inner, text = '"' :: inner ∧ ∀ rest, skipString (inner ++ rest) = .ok rest := by
  obtain ⟨units, hunits⟩ := h
  refine ⟨_, rfl, fun rest => ?_⟩
  have hlength := length_le_flatMap fun unit hunit => (hunits unit hunit).ne_nil
  rw [List.flatMap_id'] at hlength
  rw [List.append_assoc, List.singleton_append, Json.skipString]
  refine skipChars_flatten hunits rest ?_
  rw [List.length_append, List.length_cons]
  omega

end Assembler.Json
