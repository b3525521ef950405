import Assembler.Proofs.Text.Token
import Mathlib.Data.List.SplitBy

/-!
# Pieces and gaps

A text falls into longest runs of characters, of separators and of others by turns.  Cutting it at
the runs of separators loses nothing: between any two pieces there was one of these runs, so pieces
and runs make up the text again when they are put in turn.  Only the two ends can give empty pieces,
and the pieces that are not empty are the other runs, with or without the blank characters at the
ends of the text.

## Main definitions

* `runs` : the longest runs of characters with a property.
* `interleave` : pieces with gaps between them.
* `Cut` : a text that is cut into pieces without loss.

## Main results

* `runs_cons` : what one more character in front does to runs.
* `cut_pieces` : every text is cut into its pieces without loss.
-/

namespace Assembler.Text

variable {text : List Char} {c : Char}

/-- The runs of characters with a property that are as long as they can be, in order. -/
def runs (p : Char → Bool) (text : List Char) : List (List Char) :=
  (text.splitBy fun c d => p c == p d).filter fun run => run.all p

/-- Pieces with a gap between any two of them. -/
def interleave : (pieces gaps : List (List Char)) → List Char
  | piece :: pieces, gap :: gaps => piece ++ gap ++ interleave pieces gaps
  | pieces, _ => pieces.flatten

/-! ### Runs -/

private theorem exists_splitBy_cons (r : Char → Char → Bool) (c : Char) (rest : List Char) :
    ∃ run others, (c :: rest).splitBy r = (c :: run) :: others := by
  obtain ⟨first, others, hsplit⟩ :=
    List.exists_cons_of_ne_nil (List.splitBy_ne_nil.mpr (List.cons_ne_nil c rest))
  obtain ⟨hflatten, hnil, -⟩ := List.splitBy_eq_iff.mp hsplit
  cases first with
  | nil => exact absurd List.mem_cons_self hnil
  | cons d run =>
    obtain ⟨rfl, -⟩ := List.cons.inj hflatten
    exact ⟨run, others, hsplit⟩

/-- A character joins the run behind it, or it is a run of its own. -/
private theorem splitBy_cons_cons {r : Char → Char → Bool} (c d : Char) (rest : List Char) :
    (c :: d :: rest).splitBy r =
      if r c d then ((d :: rest).splitBy r).modifyHead (c :: ·)
      else [c] :: (d :: rest).splitBy r := by
  split_ifs with hjoin
  · obtain ⟨run, others, hsplit⟩ := exists_splitBy_cons r d rest
    obtain ⟨hflatten, hnil, hruns, hbetween⟩ := List.splitBy_eq_iff.mp hsplit
    rw [hsplit, List.modifyHead_cons, List.splitBy_eq_iff]
    refine ⟨by rw [hflatten]; rfl, by simpa using hnil, ?_, ?_⟩
    · intro other hother
      rcases List.mem_cons.mp hother with rfl | hlater
      · exact List.isChain_cons_cons.mpr ⟨hjoin, hruns _ List.mem_cons_self⟩
      · exact hruns other (List.mem_cons_of_mem _ hlater)
    · -- the longer run ends as it did
      rw [List.isChain_cons] at hbetween ⊢
      refine ⟨fun other hother => ?_, hbetween.2⟩
      obtain ⟨hne, hne', hdiffer⟩ := hbetween.1 other hother
      exact ⟨List.cons_ne_nil _ _, hne', by rwa [List.getLast_cons hne]⟩
  · have hsplit := List.splitBy_append_cons (l := [c]) (a := d) rest (r := r) (by simpa using hjoin)
    exact hsplit

/-- A run has a property if its first character has it. -/
private theorem all_of_isChain {p : Char → Bool} {run : List Char}
    (h : (c :: run).IsChain fun c d => p c == p d) : (c :: run).all p = p c := by
  induction run generalizing c with
  | nil => simp
  | cons d run ih =>
    obtain ⟨hsame, hrest⟩ := List.isChain_cons_cons.mp h
    rw [List.all_cons, ih hrest, beq_iff_eq.mp hsame, Bool.and_self]

/-- The first run of a text, and whether it has a property. -/
theorem exists_run_cons (p : Char → Bool) (c : Char) (rest : List Char) :
    ∃ run others, (c :: rest).splitBy (fun c d => p c == p d) = (c :: run) :: others ∧
      (c :: run).all p = p c := by
  obtain ⟨run, others, hsplit⟩ := exists_splitBy_cons (fun c d => p c == p d) c rest
  have hmem : c :: run ∈ (c :: rest).splitBy fun c d => p c == p d :=
    hsplit ▸ List.mem_cons_self
  exact ⟨run, others, hsplit, all_of_isChain (List.isChain_of_mem_splitBy hmem)⟩

/-- The runs of a text with one more character in front. -/
theorem runs_cons (p : Char → Bool) (c : Char) (rest : List Char) :
    runs p (c :: rest) =
      if p c then
        if rest.head?.any p then (runs p rest).modifyHead (c :: ·) else [c] :: runs p rest
      else runs p rest := by
  cases rest with
  | nil =>
    have hsplit : [c].splitBy (fun c d => p c == p d) = [[c]] := rfl
    rw [runs, hsplit]
    by_cases hc : p c = true <;> simp [runs, hc]
  | cons d rest =>
    obtain ⟨run, others, hsplit, hrun⟩ := exists_run_cons p d rest
    rw [runs, runs, splitBy_cons_cons, hsplit, List.head?_cons, Option.any_some]
    by_cases hc : p c = true <;> by_cases hd : p d = true <;>
      simp [hc, hd, List.all_cons, hrun]

private theorem runs_ne_nil {p : Char → Bool} (h : text.head?.any p = true) : runs p text ≠ [] := by
  cases text with
  | nil => cases h
  | cons c rest =>
    have hc : p c = true := h
    obtain ⟨run, others, hsplit, hrun⟩ := exists_run_cons p c rest
    rw [runs, hsplit, List.filter_cons, hrun, if_pos hc]
    exact List.cons_ne_nil _ _

/-! ### Pieces -/

private theorem beginsSeparated_eq (text : List Char) :
    beginsSeparated text = text.head?.any isSeparator := by
  cases text <;> rfl

private theorem takeWhile_eq_nil_of_head? (h : text.head?.any isSeparator = true) :
    text.takeWhile (!isSeparator ·) = [] := by
  cases text with
  | nil => rfl
  | cons c rest =>
    have hc : isSeparator c = true := h
    exact List.takeWhile_cons_of_neg (by simp [hc])

/-- The first piece is what comes before the first separator. -/
theorem exists_pieces_eq (text : List Char) :
    ∃ others, pieces text = text.takeWhile (!isSeparator ·) :: others := by
  induction text with
  | nil => exact ⟨[], rfl⟩
  | cons c rest ih =>
    obtain ⟨others, hrest⟩ := ih
    rw [pieces]
    by_cases hc : isSeparator c = true
    · rw [if_pos hc, List.takeWhile_cons_of_neg (by simpa using hc)]
      cases rest with
      | nil => exact ⟨_, rfl⟩
      | cons d rest =>
        by_cases hd : isSeparator d = true
        · refine ⟨others, ?_⟩
          rw [List.takeWhile_cons_of_neg (by simpa using hd)] at hrest
          rw [beginsSeparated, if_pos hd, hrest]
        · exact ⟨_, if_neg hd⟩
    · refine ⟨others, ?_⟩
      rw [if_neg hc, List.takeWhile_cons_of_pos (by simpa using hc), hrest, List.modifyHead_cons]

/-- There is one piece more than there are runs of separators. -/
private theorem length_pieces (text : List Char) :
    (pieces text).length = (runs isSeparator text).length + 1 := by
  induction text with
  | nil => rfl
  | cons c rest ih =>
    rw [pieces, runs_cons, beginsSeparated_eq]
    split_ifs <;> simp [ih]

private theorem interleave_modifyHead_left (c : Char) {pieces : List (List Char)} (h : pieces ≠ [])
    (gaps : List (List Char)) :
    interleave (pieces.modifyHead (c :: ·)) gaps = c :: interleave pieces gaps := by
  obtain ⟨piece, others, rfl⟩ := List.exists_cons_of_ne_nil h
  cases gaps <;> rfl

private theorem interleave_modifyHead_right (c : Char) (others : List (List Char))
    {gaps : List (List Char)} (h : gaps ≠ []) :
    interleave ([] :: others) (gaps.modifyHead (c :: ·)) = c :: interleave ([] :: others) gaps := by
  obtain ⟨gap, others, rfl⟩ := List.exists_cons_of_ne_nil h
  rfl

/-- Pieces and runs of separators in turn are the text. -/
private theorem interleave_pieces (text : List Char) :
    interleave (pieces text) (runs isSeparator text) = text := by
  induction text with
  | nil => rfl
  | cons c rest ih =>
    rw [pieces, runs_cons, beginsSeparated_eq]
    split_ifs with hc hrest
    · -- the run grows, behind an empty piece
      obtain ⟨others, hpieces⟩ := exists_pieces_eq rest
      rw [takeWhile_eq_nil_of_head? hrest] at hpieces
      rw [hpieces] at ih ⊢
      rw [interleave_modifyHead_right c others (runs_ne_nil hrest), ih]
    · change c :: interleave (pieces rest) (runs isSeparator rest) = _
      rw [ih]
    · rw [interleave_modifyHead_left c (pieces_ne_nil rest), ih]

/-- Only the first piece and the last one can be empty. -/
private theorem ne_nil_of_mem_inner {piece : List Char} (h : piece ∈ (pieces text).tail.dropLast) :
    piece ≠ [] := by
  induction text with
  | nil => cases h
  | cons c rest ih =>
    obtain ⟨others, hpieces⟩ := exists_pieces_eq rest
    rw [pieces, hpieces] at h
    rw [hpieces] at ih
    split_ifs at h with hc hrest
    · exact ih h
    · cases others with
      | nil => cases h
      | cons other others =>
        rw [List.tail_cons, List.dropLast_cons_cons] at h
        rcases List.mem_cons.mp h with rfl | hlater
        · -- behind the separator stands a character of the next piece
          cases rest with
          | nil => cases hpieces
          | cons d rest =>
            rw [List.takeWhile_cons_of_pos (by simpa [beginsSeparated] using hrest)]
            exact List.cons_ne_nil _ _
        · exact ih hlater
    · exact ih h

/-- The pieces that are not empty are the runs of characters that separate nothing. -/
theorem tokens_eq_runs (text : List Char) : tokens text = runs (!isSeparator ·) text := by
  induction text with
  | nil => rfl
  | cons c rest ih =>
    obtain ⟨others, hpieces⟩ := exists_pieces_eq rest
    rw [runs_cons]
    by_cases hc : isSeparator c = true
    · rw [if_neg (by simpa using hc), ← ih]
      exact tokens_append_cons hc [] rest
    · rw [tokens, hpieces] at ih
      rw [if_pos (by simpa using hc), ← ih, tokens, pieces, if_neg hc, hpieces,
        List.modifyHead_cons, List.filter_cons_of_pos rfl]
      cases rest with
      | nil => simp
      | cons d rest =>
        by_cases hd : isSeparator d = true <;> simp [hd]

/-! ### Cutting -/

/-- A text is cut into pieces without loss. -/
structure Cut (text : List Char) (pieces : List (List Char)) : Prop where
  solid : ∀ piece ∈ pieces, ∀ c ∈ piece, isBlank c = false ∧ c ≠ ','
  inner : ∀ piece ∈ pieces.tail.dropLast, piece ≠ []
  length_eq : pieces.length = (runs isSeparator text).length + 1
  interleave_eq : interleave pieces (runs isSeparator text) = text
  words : pieces.filter (fun piece => !piece.isEmpty) = runs (!isSeparator ·) text
  /-- The runs of characters that separate nothing are those of the trimmed text. -/
  trimmed : (Text.pieces (trim text)).filter (fun piece => !piece.isEmpty) =
    runs (!isSeparator ·) text

/-- Every text is cut into its pieces without loss. -/
theorem cut_pieces (text : List Char) : Cut text (pieces text) where
  solid piece hpiece c hc := by
    have hseparator := mem_pieces_not_isSeparator hpiece c hc
    rwa [isSeparator, Bool.or_eq_false_iff, beq_eq_false_iff_ne] at hseparator
  inner _ := ne_nil_of_mem_inner
  length_eq := length_pieces text
  interleave_eq := interleave_pieces text
  words := tokens_eq_runs text
  trimmed := (tokens_trim text).trans (tokens_eq_runs text)

/-- Separators of both kinds make one gap, and at the ends they leave empty pieces. -/
example : pieces " A ,\tB,".toList = ["".toList, "A".toList, "B".toList, "".toList] ∧
    runs isSeparator " A ,\tB,".toList = [" ".toList, " ,\t".toList, ",".toList] := by
  decide

end Assembler.Text
