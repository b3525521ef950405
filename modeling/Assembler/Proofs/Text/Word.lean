import Assembler.Proofs.Text.Token

/-!
# Words and gaps

A text is made of words and the gaps around them.  A gap holds separators only and a word holds
none, and behind a word comes a gap or the end of the text, so that no word could be longer.  This
says what the words of a text are without saying how they are found, and it leaves the gaps free:
texts with the same words in other gaps are tokenized alike.

## Main definitions

* `Worded` : the words of a text, in order.

## Main results

* `worded_iff` : every text has words, which are its tokens.
* `tokens_intercalate` : the tokens of words with a gap between any two of them.
-/

namespace Assembler.Text

variable {text gap : List Char} {words : List (List Char)}

/-- A text holds words, in order: each a run of characters that separate nothing, and as long as it
can be. -/
inductive Worded : List Char → List (List Char) → Prop
  | gap {gap : List Char} (hgap : ∀ c ∈ gap, isSeparator c = true) : Worded gap []
  | word {gap word rest : List Char} {words : List (List Char)}
      (hgap : ∀ c ∈ gap, isSeparator c = true) (hne : word ≠ [])
      (hword : ∀ c ∈ word, isSeparator c = false)
      (hrest : ∀ c ∈ rest.head?, isSeparator c = true) (hwords : Worded rest words) :
      Worded (gap ++ word ++ rest) (word :: words)

/-- The words of a text are its tokens. -/
theorem Worded.eq_tokens (h : Worded text words) : words = tokens text := by
  induction h with
  | gap hgap => rw [tokens_of_separators hgap]
  | word hgap hne hword hrest _ ih =>
    rw [List.append_assoc, tokens_append_left hgap, tokens_word_append hne hword hrest, ih]

/-- The tokens of a text are words of it: behind its first word it goes on in the same way. -/
theorem worded_tokens (text : List Char) : Worded text (tokens text) := by
  by_cases hbody : text.dropWhile isSeparator = []
  · have hall := List.dropWhile_eq_nil_iff.mp hbody
    rw [tokens_of_separators hall]
    exact .gap hall
  · obtain ⟨gap, word, htext, hgap, hne, hword, hrest⟩ := exists_firstWord hbody
    generalize (text.dropWhile isSeparator).dropWhile (!isSeparator ·) = rest at htext hrest
    have hshorter : rest.length < text.length := by
      have hpos := List.length_pos_iff.mpr hne
      rw [htext, List.length_append, List.length_append]
      omega
    have hworded := Worded.word hgap hne hword hrest (worded_tokens rest)
    rw [htext, ← hworded.eq_tokens]
    exact hworded
termination_by text.length

/-- Every text has words, and they are its tokens. -/
theorem worded_iff : Worded text words ↔ words = tokens text := by
  constructor
  · exact Worded.eq_tokens
  · rintro rfl
    exact worded_tokens text

/-- Words with a gap between any two of them are tokens of their own. -/
theorem tokens_intercalate (hne : gap ≠ []) (hgap : ∀ c ∈ gap, isSeparator c = true)
    (hwords : ∀ word ∈ words, word ≠ [] ∧ ∀ c ∈ word, isSeparator c = false) :
    tokens (gap.intercalate words) = words := by
  induction words with
  | nil => rfl
  | cons word rest ih =>
    obtain ⟨hword, hsolid⟩ := hwords word List.mem_cons_self
    have hrest := ih fun other hother => hwords other (List.mem_cons_of_mem word hother)
    cases rest with
    | nil => simpa using tokens_of_word hword hsolid
    | cons next others =>
      have hhead : ∀ c ∈ (gap ++ gap.intercalate (next :: others)).head?,
          isSeparator c = true := by
        rw [List.head?_append_of_ne_nil _ hne]
        exact fun c hc => hgap c (List.mem_of_mem_head? hc)
      rw [List.intercalate_cons_cons, List.append_assoc, tokens_word_append hword hsolid hhead,
        tokens_append_left hgap, hrest]

end Assembler.Text
