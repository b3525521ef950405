import Assembler.Proofs.Text.Name
import Assembler.Text.Line
import Mathlib.Data.List.DropRight

/-!
# The words of a text

A separator splits the words of a text into those before it and those behind it, and everything
about words follows from that.  Separators at the two ends of a text belong to no word, so trimming
a line or dropping the carriage return at its end keeps its words.  The last word of a text can be
put out and another put in its place without any other word changing, and so can all of them.

## Main definitions

* `replaceLastWord`, `replaceWords` : a text with another last word, and with other words.

## Main results

* `tokens_append_cons` : words split at a separator.
* `tokens_trim`, `tokens_dropReturn` : texts with the same words.
* `tokens_replaceLastWord`, `tokens_replaceWords` : the words after they are replaced.
-/

namespace Assembler.Text

variable {text front word : List Char} {c : Char}

/-- Cutting at every separator gives the same pieces as cutting once in a run, but for empty ones.
The first piece is carried along because a character in front of the text joins it. -/
private theorem pieces_eq (text : List Char) :
    (pieces text).head? = (text.splitOnP isSeparator).head? ∧
      (pieces text).filter (fun piece => !piece.isEmpty) =
        (text.splitOnP isSeparator).filter fun piece => !piece.isEmpty := by
  induction text with
  | nil => exact ⟨rfl, rfl⟩
  | cons c rest ih =>
    obtain ⟨hhead, hfilter⟩ := ih
    rw [pieces, List.splitOnP_cons_eq_if_modifyHead]
    by_cases hc : isSeparator c = true
    · rw [if_pos hc, if_pos hc]
      by_cases hrest : beginsSeparated rest = true
      · refine ⟨?_, by rw [if_pos hrest, hfilter]; rfl⟩
        rw [if_pos hrest, hhead]
        cases rest with
        | nil => cases hrest
        | cons d others =>
          have hd : isSeparator d = true := hrest
          rw [List.splitOnP_cons_eq_if_modifyHead, if_pos hd]
          rfl
      · rw [if_neg hrest]
        exact ⟨rfl, hfilter⟩
    · rw [if_neg hc, if_neg hc]
      obtain ⟨piece, others, hpieces⟩ := List.exists_cons_of_ne_nil (pieces_ne_nil rest)
      obtain ⟨piece', others', hpieces'⟩ :=
        List.exists_cons_of_ne_nil (List.splitOnP_ne_nil isSeparator rest)
      rw [hpieces, hpieces'] at hhead hfilter ⊢
      obtain rfl : piece = piece' := Option.some.inj hhead
      have hothers : others.filter (fun piece => !piece.isEmpty) =
          others'.filter fun piece => !piece.isEmpty := by
        rw [List.filter_cons, List.filter_cons] at hfilter
        split_ifs at hfilter
        · exact (List.cons.inj hfilter).2
        · exact hfilter
      refine ⟨rfl, ?_⟩
      rw [List.modifyHead_cons, List.modifyHead_cons, List.filter_cons, List.filter_cons, hothers]

/-- The words of a text are what stands between its separators. -/
theorem tokens_eq (text : List Char) :
    tokens text = (text.splitOnP isSeparator).filter fun piece => !piece.isEmpty :=
  (pieces_eq text).2

/-- Words split at a separator. -/
theorem tokens_append_cons (hc : isSeparator c = true) (front rest : List Char) :
    tokens (front ++ c :: rest) = tokens front ++ tokens rest := by
  rw [tokens_eq, List.splitOnP_append_cons front rest hc, List.filter_append, ← tokens_eq,
    ← tokens_eq]

/-- What holds no separator is a single word. -/
theorem tokens_of_word (hne : word ≠ []) (hword : ∀ c ∈ word, isSeparator c = false) :
    tokens word = [word] := by
  rw [tokens_eq, List.splitOnP_eq_singleton hword]
  simp [hne]

/-- Separators in front of a text belong to no word. -/
theorem tokens_append_left (hfront : ∀ c ∈ front, isSeparator c = true) (text : List Char) :
    tokens (front ++ text) = tokens text := by
  induction front with
  | nil => rfl
  | cons c rest ih =>
    have hc := hfront c List.mem_cons_self
    have hrest := ih fun d hd => hfront d (List.mem_cons_of_mem c hd)
    rw [List.cons_append]
    exact (tokens_append_cons hc [] (rest ++ text)).trans hrest

/-- A text of separators holds no word. -/
theorem tokens_of_separators (h : ∀ c ∈ text, isSeparator c = true) : tokens text = [] := by
  rw [← List.append_nil text]
  exact tokens_append_left h []

/-- Separators behind a text belong to no word. -/
theorem tokens_append_right {rest : List Char} (hrest : ∀ c ∈ rest, isSeparator c = true)
    (text : List Char) : tokens (text ++ rest) = tokens text := by
  have hnone := tokens_of_separators hrest
  cases rest with
  | nil => rw [List.append_nil]
  | cons c others =>
    have hc := hrest c List.mem_cons_self
    have hothers : tokens others = [] := (tokens_append_cons hc [] others).symm.trans hnone
    rw [tokens_append_cons hc, hothers, List.append_nil]

private theorem isSeparator_of_isBlank (h : isBlank c = true) : isSeparator c = true := by
  rw [isSeparator, h, Bool.true_or]

/-- Trimming keeps the words. -/
theorem tokens_trim (text : List Char) : tokens (trim text) = tokens text := by
  have hfront : ∀ c ∈ text.takeWhile isBlank, isSeparator c = true :=
    fun c hc => isSeparator_of_isBlank (List.mem_takeWhile_imp hc)
  have hback : ∀ c ∈ (text.dropWhile isBlank).rtakeWhile isBlank, isSeparator c = true :=
    fun c hc => isSeparator_of_isBlank (List.mem_rtakeWhile_imp hc)
  calc tokens (trim text)
      = tokens ((text.dropWhile isBlank).rdropWhile isBlank) := rfl
    _ = tokens (text.dropWhile isBlank) := by
        rw [← tokens_append_right hback, List.rdropWhile_append_rtakeWhile]
    _ = tokens text := by
        rw [← tokens_append_left hfront, List.takeWhile_append_dropWhile]

/-- A text ends in the carriage return that is dropped from it. -/
theorem eq_dropReturn_or (text : List Char) :
    dropReturn text = text ∨ text = dropReturn text ++ ['\r'] := by
  rw [dropReturn]
  split_ifs with hlast
  · exact .inr (List.dropLast_append_getLast? '\r' hlast).symm
  · exact .inl rfl

/-- Dropping a carriage return keeps the words. -/
theorem tokens_dropReturn (text : List Char) : tokens (dropReturn text) = tokens text := by
  obtain hsame | hreturn := eq_dropReturn_or text
  · rw [hsame]
  · have hblank : isBlank '\r' = true := by decide
    have hseparator : ∀ c ∈ ['\r'], isSeparator c = true := fun c hc =>
      List.mem_singleton.mp hc ▸ isSeparator_of_isBlank hblank
    conv_rhs => rw [hreturn]
    exact (tokens_append_right hseparator _).symm

/-- Dropping a carriage return makes no text blank. -/
theorem isBlankText_dropReturn (text : List Char) :
    isBlankText (dropReturn text) = isBlankText text := by
  obtain hsame | hreturn := eq_dropReturn_or text
  · rw [hsame]
  · have hblank : isBlank '\r' = true := by decide
    conv_rhs => rw [hreturn]
    simp [isBlankText, hblank]

/-- A text that has a word is not blank. -/
theorem isBlankText_of_tokens_ne_nil (h : tokens text ≠ []) : isBlankText text = false := by
  by_contra hblank
  have hall : ∀ c ∈ text, isBlank c = true := by simpa [isBlankText] using hblank
  apply h
  rw [← List.append_nil text]
  exact tokens_append_left (fun c hc => isSeparator_of_isBlank (hall c hc)) []

/-! ### The last word -/

/-- What comes before the last word of a text. -/
def beforeLastWord (text : List Char) : List Char :=
  (text.rdropWhile isSeparator).rdropWhile (!isSeparator ·)

/-- The last word of a text. -/
def lastWord (text : List Char) : List Char :=
  (text.rdropWhile isSeparator).rtakeWhile (!isSeparator ·)

/-- A text with another last word. -/
def replaceLastWord (text word : List Char) : List Char :=
  beforeLastWord text ++ word ++ text.rtakeWhile isSeparator

private theorem replaceLastWord_lastWord (text : List Char) :
    replaceLastWord text (lastWord text) = text := by
  rw [replaceLastWord, beforeLastWord, lastWord, List.rdropWhile_append_rtakeWhile,
    List.rdropWhile_append_rtakeWhile]

private theorem lastWord_ne_nil (h : tokens text ≠ []) : lastWord text ≠ [] := by
  intro hnone
  rw [lastWord, List.rtakeWhile_eq_nil_iff] at hnone
  by_cases hempty : text.rdropWhile isSeparator = []
  · -- there is nothing but separators
    apply h
    rw [List.rdropWhile_eq_nil_iff] at hempty
    rw [← List.append_nil text]
    exact tokens_append_left hempty []
  · exact List.rdropWhile_last_not _ _ hempty (by simpa using hnone hempty)

/-- What comes before the last word is nothing, or it ends in a separator. -/
theorem tokens_beforeLastWord_append (hne : word ≠ [])
    (hword : ∀ c ∈ word, isSeparator c = false) :
    tokens (beforeLastWord text ++ word) = tokens (beforeLastWord text) ++ [word] := by
  by_cases hempty : beforeLastWord text = []
  · rw [hempty, List.nil_append, tokens_of_word hne hword]
    rfl
  · have hkept : ¬(!isSeparator ((beforeLastWord text).getLast hempty)) = true :=
      List.rdropWhile_last_not _ _ hempty
    have hlast : isSeparator ((beforeLastWord text).getLast hempty) = true := by simpa using hkept
    rw [← List.dropLast_append_getLast hempty, List.append_assoc, List.singleton_append,
      tokens_append_cons hlast, tokens_append_cons hlast, tokens_of_word hne hword]
    simp [tokens, pieces]

/-- Replacing the last word of a text keeps its other words. -/
theorem tokens_replaceLastWord (h : tokens text ≠ []) (hne : word ≠ [])
    (hword : ∀ c ∈ word, isSeparator c = false) :
    tokens (replaceLastWord text word) = (tokens text).dropLast ++ [word] := by
  have hback : ∀ c ∈ text.rtakeWhile isSeparator, isSeparator c = true :=
    fun c hc => List.mem_rtakeWhile_imp hc
  have hlast : ∀ c ∈ lastWord text, isSeparator c = false :=
    fun c hc => by simpa using List.mem_rtakeWhile_imp hc
  have htext : tokens text = tokens (beforeLastWord text) ++ [lastWord text] :=
    calc tokens text
        = tokens (beforeLastWord text ++ lastWord text ++ text.rtakeWhile isSeparator) :=
          congrArg tokens (replaceLastWord_lastWord text).symm
      _ = tokens (beforeLastWord text ++ lastWord text) := tokens_append_right hback _
      _ = tokens (beforeLastWord text) ++ [lastWord text] :=
          tokens_beforeLastWord_append (lastWord_ne_nil h) hlast
  rw [htext, List.dropLast_concat, replaceLastWord, tokens_append_right hback,
    tokens_beforeLastWord_append hne hword]

theorem mem_replaceLastWord (h : c ∈ replaceLastWord text word) : c ∈ text ∨ c ∈ word := by
  rw [replaceLastWord, List.mem_append, List.mem_append] at h
  obtain (hfront | hword) | hback := h
  · exact .inl ((List.rdropWhile_prefix _ _).subset ((List.rdropWhile_prefix _ _).subset hfront))
  · exact .inr hword
  · exact .inl ((List.rtakeWhile_suffix _ _).subset hback)

/-! ### All words -/

/-- A text with other words in the place of its own, one by one from the first on.  The separators
stay. -/
def replaceWords (text : List Char) : List (List Char) → List Char
  | [] => text
  | word :: rest =>
    text.takeWhile isSeparator ++ word ++
      replaceWords ((text.dropWhile isSeparator).dropWhile (!isSeparator ·)) rest

/-- Behind a word comes nothing, or a separator. -/
theorem tokens_word_append (hne : word ≠ []) (hword : ∀ c ∈ word, isSeparator c = false)
    {rest : List Char} (hrest : ∀ c ∈ rest.head?, isSeparator c = true) :
    tokens (word ++ rest) = word :: tokens rest := by
  cases rest with
  | nil =>
    rw [List.append_nil, tokens_of_word hne hword]
    rfl
  | cons c others =>
    have hc : isSeparator c = true := hrest c rfl
    rw [tokens_append_cons hc, tokens_of_word hne hword]
    exact congrArg (word :: ·) (tokens_append_cons hc [] others).symm

private theorem of_mem_head?_dropWhile {p : Char → Bool} (h : c ∈ (text.dropWhile p).head?) :
    p c = false := by
  have hfirst := List.head?_dropWhile_not p text
  rwa [Option.mem_def.mp h] at hfirst

/-- A text that does not hold separators only is a gap, a word, and what is behind them. -/
theorem exists_firstWord (h : text.dropWhile isSeparator ≠ []) :
    ∃ gap word, text = gap ++ word ++ (text.dropWhile isSeparator).dropWhile (!isSeparator ·) ∧
      (∀ c ∈ gap, isSeparator c = true) ∧ word ≠ [] ∧ (∀ c ∈ word, isSeparator c = false) ∧
      ∀ c ∈ ((text.dropWhile isSeparator).dropWhile (!isSeparator ·)).head?,
        isSeparator c = true := by
  refine ⟨text.takeWhile isSeparator, (text.dropWhile isSeparator).takeWhile (!isSeparator ·), ?_,
    fun c hc => List.mem_takeWhile_imp hc, ?_, fun c hc => by simpa using List.mem_takeWhile_imp hc,
    fun c hc => by simpa using of_mem_head?_dropWhile hc⟩
  · rw [List.append_assoc, List.takeWhile_append_dropWhile, List.takeWhile_append_dropWhile]
  · obtain ⟨c, rest, hbody⟩ := List.exists_cons_of_ne_nil h
    have hc : isSeparator c = false := of_mem_head?_dropWhile (by rw [hbody]; rfl)
    rw [hbody, List.takeWhile_cons_of_pos (by simpa using hc)]
    exact List.cons_ne_nil _ _

/-- The words behind the first word of a text. -/
private theorem tokens_behind {first : List Char} {others : List (List Char)}
    (h : tokens text = first :: others) :
    tokens ((text.dropWhile isSeparator).dropWhile (!isSeparator ·)) = others := by
  have hbody : text.dropWhile isSeparator ≠ [] := by
    intro hnone
    simp [tokens_of_separators (List.dropWhile_eq_nil_iff.mp hnone)] at h
  obtain ⟨gap, word, htext, hgap, hne, hword, hrest⟩ := exists_firstWord hbody
  rw [htext, List.append_assoc, tokens_append_left hgap, tokens_word_append hne hword hrest] at h
  exact (List.cons.inj h).2

/-- Where a text is empty or begins with a separator it still does with other words. -/
private theorem head?_replaceWords (h : ∀ c ∈ text.head?, isSeparator c = true)
    {words : List (List Char)} (hnil : text = [] → words = []) :
    ∀ c ∈ (replaceWords text words).head?, isSeparator c = true := by
  cases words with
  | nil => exact h
  | cons word rest =>
    cases text with
    | nil => cases hnil rfl
    | cons c others =>
      have hc : isSeparator c = true := h c rfl
      rw [replaceWords, List.takeWhile_cons_of_pos hc]
      exact h

/-- The words of a text after all of them are replaced. -/
theorem tokens_replaceWords {words : List (List Char)}
    (hlength : words.length = (tokens text).length)
    (hwords : ∀ word ∈ words, word ≠ [] ∧ ∀ c ∈ word, isSeparator c = false) :
    tokens (replaceWords text words) = words := by
  induction words generalizing text with
  | nil => exact List.length_eq_zero_iff.mp hlength.symm
  | cons word rest ih =>
    cases htokens : tokens text with
    | nil => simp [htokens] at hlength
    | cons first others =>
      have htail := tokens_behind htokens
      have hfront : ∀ c ∈ text.takeWhile isSeparator, isSeparator c = true :=
        fun c hc => List.mem_takeWhile_imp hc
      have hbegins : ∀ c ∈ ((text.dropWhile isSeparator).dropWhile (!isSeparator ·)).head?,
          isSeparator c = true := fun c hc => by simpa using of_mem_head?_dropWhile hc
      obtain ⟨hne, hword⟩ := hwords word List.mem_cons_self
      rw [replaceWords, List.append_assoc, tokens_append_left hfront]
      generalize (text.dropWhile isSeparator).dropWhile (!isSeparator ·) = behind
        at htail hbegins ⊢
      have hrest : rest.length = (tokens behind).length := by
        rw [htail]
        simpa [htokens] using hlength
      have hnil : behind = [] → rest = [] := by
        rintro rfl
        exact List.length_eq_zero_iff.mp hrest
      rw [tokens_word_append hne hword (head?_replaceWords hbegins hnil),
        ih hrest fun other hother => hwords other (List.mem_cons_of_mem word hother)]

theorem mem_replaceWords {words : List (List Char)} (h : c ∈ replaceWords text words) :
    c ∈ text ∨ ∃ word ∈ words, c ∈ word := by
  induction words generalizing text with
  | nil => exact .inl h
  | cons word rest ih =>
    rw [replaceWords, List.mem_append, List.mem_append] at h
    obtain (hfront | hword) | hback := h
    · exact .inl (List.takeWhile_subset _ hfront)
    · exact .inr ⟨word, List.mem_cons_self, hword⟩
    · obtain hrest | ⟨other, hother, hmem⟩ := ih hback
      · exact .inl ((List.dropWhile_subset _) (List.dropWhile_subset _ hrest))
      · exact .inr ⟨other, List.mem_cons_of_mem word hother, hmem⟩

/-! ### Numerals -/

theorem isSeparator_of_isDigit (h : c.isDigit = true) : isSeparator c = false :=
  isSeparator_of_continuesName (by rw [continuesName, h, Bool.or_true])

/-- A number written in decimal is a single word. -/
theorem repr_word (n : Nat) :
    n.repr.toList ≠ [] ∧ ∀ c ∈ n.repr.toList, c.isDigit = true ∧ isSeparator c = false := by
  rw [Nat.toList_repr]
  refine ⟨Nat.toDigits_ne_nil, fun c hc => ?_⟩
  have hdigit := Nat.isDigit_of_mem_toDigits (by decide) (by decide) hc
  exact ⟨hdigit, isSeparator_of_isDigit hdigit⟩

end Assembler.Text
