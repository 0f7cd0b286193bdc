/-
Words and lines of text.

Words are the pieces between blanks that are not empty (`Text.words_eq_filter`), so blanks at the
ends of a line do not matter to its words (`Text.words_trim`).  Lines are the pieces between line
feeds, but for an empty last one (`Text.splitOn_eq_lines`).
-/
import Mathlib
import ClassGraft.Text.Blank

namespace ClassGraft

namespace Text

/-- A line without the blanks at both of its ends. -/
def trim (line : List Char) : List Char := (line.dropWhile isBlank).rdropWhile isBlank

variable {c : Char} {rest : List Char}

/-- Words are what is left between blanks, where anything is. -/
theorem words_eq_filter (cs : List Char) :
    words cs = (cs.splitOnP isBlank).filter (· ≠ []) := by
  -- A letter joins the piece behind it, which is a word or empty.
  induction cs with
  | nil => rfl
  | cons c rest ih =>
    rw [words.eq_def, List.splitOnP_cons_eq_if_modifyHead]
    dsimp only
    by_cases hc : isBlank c
    · rw [if_pos hc, if_pos hc, ih]
      rfl
    · rw [if_neg hc, if_neg hc]
      rcases rest with _ | ⟨d, rest⟩
      · rfl
      · dsimp only
        rw [ih, List.splitOnP_cons_eq_if_modifyHead]
        by_cases hd : isBlank d
        · rw [if_pos hd, if_pos hd]
          simp
        · rw [if_neg hd, if_neg hd]
          obtain ⟨piece, pieces, hpieces⟩ :=
            List.exists_cons_of_ne_nil (List.splitOnP_ne_nil isBlank rest)
          simp [hpieces]

/-- Words end at a blank. -/
theorem words_append_cons (h : isBlank c = true) (front back : List Char) :
    words (front ++ c :: back) = words front ++ words back := by
  simp only [words_eq_filter, List.splitOnP_append_cons front back h, List.filter_append]

theorem words_cons_of_isBlank (h : isBlank c = true) (rest : List Char) :
    words (c :: rest) = words rest :=
  words_append_cons h [] rest

/-- A letter opens the first word. -/
theorem exists_words_cons (h : isBlank c = false) (rest : List Char) :
    ∃ word more, words (c :: rest) = (c :: word) :: more := by
  obtain ⟨piece, pieces, hpieces⟩ :=
    List.exists_cons_of_ne_nil (List.splitOnP_ne_nil isBlank rest)
  refine ⟨piece, pieces.filter (· ≠ []), ?_⟩
  rw [words_eq_filter, List.splitOnP_cons_eq_if_modifyHead, if_neg (by simp [h]), hpieces]
  simp

theorem words_append_blanks {blanks : List Char} (h : ∀ c ∈ blanks, isBlank c = true)
    (line : List Char) : words (line ++ blanks) = words line := by
  cases blanks with
  | nil => rw [List.append_nil]
  | cons c blanks =>
    have hblanks : words blanks = [] := by
      have htail := (List.forall_mem_cons.mp h).2
      clear h
      induction blanks with
      | nil => rfl
      | cons d blanks ih =>
        obtain ⟨hd, htail⟩ := List.forall_mem_cons.mp htail
        rw [words_cons_of_isBlank hd, ih htail]
    rw [words_append_cons (List.forall_mem_cons.mp h).1, hblanks, List.append_nil]

theorem words_dropWhile (line : List Char) : words (line.dropWhile isBlank) = words line := by
  induction line with
  | nil => rfl
  | cons c rest ih =>
    rw [List.dropWhile_cons]
    split
    · next hc => rw [ih, words_cons_of_isBlank hc]
    · rfl

/-- Blanks at the ends of a line do not matter to its words. -/
theorem words_trim (line : List Char) : words (trim line) = words line := by
  have hends : trim line ++ (line.dropWhile isBlank).rtakeWhile isBlank =
      line.dropWhile isBlank := List.rdropWhile_append_rtakeWhile
  rw [← words_dropWhile line, ← hends]
  exact (words_append_blanks (fun c hc => List.mem_rtakeWhile_imp hc) _).symm

/-- What is left of a line opens with a letter. -/
theorem isBlank_of_trim_eq_cons {line : List Char} (h : trim line = c :: rest) :
    isBlank c = false := by
  obtain ⟨back, hback⟩ := List.rdropWhile_prefix isBlank (line.dropWhile isBlank)
  have hfirst := List.head?_dropWhile_not isBlank line
  rw [← hback, show (line.dropWhile isBlank).rdropWhile isBlank = c :: rest from h] at hfirst
  exact hfirst

/-- The lines of a text are its pieces between line feeds, but for an empty last one. -/
theorem splitOn_eq_lines (cs : List Char) :
    cs.splitOn '\n' = lines cs ∨ cs.splitOn '\n' = lines cs ++ [[]] := by
  induction cs with
  | nil => exact .inr rfl
  | cons c rest ih =>
    have hsplit : (c :: rest).splitOn '\n' = if c = '\n' then [] :: rest.splitOn '\n'
        else (rest.splitOn '\n').modifyHead (c :: ·) := by
      simp only [List.splitOn, List.splitOnP_cons_eq_if_modifyHead, beq_iff_eq]
    rw [hsplit, lines]
    by_cases hc : c = '\n'
    · rw [if_pos hc, if_pos hc]
      rcases ih with ih | ih
      · exact .inl (by rw [ih])
      · exact .inr (by rw [ih, List.cons_append])
    · rw [if_neg hc, if_neg hc]
      have hne : rest.splitOn '\n' ≠ [] := List.splitOnP_ne_nil _ rest
      rcases hlines : lines rest with _ | ⟨line, more⟩
      · rw [hlines] at ih
        rcases ih with ih | ih
        · exact absurd ih hne
        · exact .inl (by rw [ih]; rfl)
      · rw [hlines] at ih
        rcases ih with ih | ih
        · exact .inl (by rw [ih]; rfl)
        · exact .inr (by rw [ih]; rfl)

end Text

end ClassGraft
