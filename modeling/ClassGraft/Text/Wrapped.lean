/-
Lines broken to a width.

A line that is wider than the columns it may take is broken at its blanks, and one blank is lost
at each break.  A word goes to the line in front of it if it fits there; a word that fits into no
line is cut between two of its clusters, where the line is full; behind other words that may be
in front of all of it, and the blank then stays at the end of the line.  A line with room for two
columns or less is full.
-/
import ClassGraft.Text.Cluster.Basic
import ClassGraft.Text.Columns.Basic

namespace ClassGraft.Text

namespace Wrapped

/-- The columns at the end of a line that nothing is put into. -/
def slack : Nat := 2

/-- Cuts clusters where a number of columns is full. -/
def cutClusters (room : Nat) : List (List Char) → List Char × List Char
  | [] => ([], [])
  | cluster :: rest =>
    if columns cluster ≤ room then
      let (start, left) := cutClusters (room - columns cluster) rest
      (cluster ++ start, left)
    else ([], (cluster :: rest).flatten)

/-- Cuts a word where a number of columns is full. -/
def cut (room : Nat) (word : List Char) : List Char × List Char :=
  cutClusters room (clusters word)

theorem cutClusters_append (room : Nat) (clusters : List (List Char)) :
    (cutClusters room clusters).1 ++ (cutClusters room clusters).2 = clusters.flatten := by
  induction clusters generalizing room with
  | nil => rfl
  | cons cluster rest ih =>
    rw [cutClusters]
    split
    · simpa using ih _
    · rfl

/-- Nothing is lost where a word is cut. -/
theorem cut_append (room : Nat) (word : List Char) :
    (cut room word).1 ++ (cut room word).2 = word := by
  rw [cut, cutClusters_append, flatten_clusters]

theorem length_cut_le (room : Nat) (word : List Char) :
    (cut room word).2.length ≤ word.length := by
  have length := congrArg List.length (cut_append room word)
  rw [List.length_append] at length
  omega

/-- Cuts a word where a number of columns is full, behind its first character at the least. -/
def cutSome (room : Nat) (word : List Char) : List Char × List Char :=
  if (cut room word).1 = [] then word.splitAt 1 else cut room word

theorem length_cutSome_lt (room : Nat) {word : List Char} (h : word ≠ []) :
    (cutSome room word).2.length < word.length := by
  have filled := List.length_pos_iff.2 h
  rw [cutSome]
  split
  · simp only [List.splitAt_eq, List.length_drop]
    omega
  · next start =>
    have length := congrArg List.length (cut_append room word)
    have started := List.length_pos_iff.2 start
    rw [List.length_append] at length
    omega

/-- A line that words are put into: its words, the last one first, and its width. -/
structure OpenLine where
  words : List (List Char) := []
  width : Nat := 0

namespace OpenLine

/-- The columns in front of the next word. -/
def filled (line : OpenLine) : Nat := if line.words = [] then 0 else line.width + 1

/-- Puts a word into a line; blanks at the start of a line are dropped. -/
def add (line : OpenLine) (word : List Char) : OpenLine :=
  if line.words = [] ∧ word = [] then line
  else { words := word :: line.words, width := line.filled + columns word }

def text (line : OpenLine) : List Char := [' '].intercalate line.words.reverse

end OpenLine

/-- Breaks words to a width, and puts them into a line that is still open. -/
def fromWords (width : Nat) (line : OpenLine) (words : List (List Char)) : List (List Char) :=
  match words with
  | [] => if line.words = [] then [] else [line.text]
  | word :: rest =>
    let longer := line.add word
    if longer.width ≤ width then
      if width - slack < longer.width then longer.text :: fromWords width {} rest
      else fromWords width longer rest
    else if line.words ≠ [] ∧ width - line.filled ≤ slack then
      line.text :: fromWords width {} (word :: rest)
    else if width < columns word then
      let pieces := if line.words = [] then cutSome width word else cut (width - line.filled) word
      (line.add pieces.1).text :: fromWords width {} (pieces.2 :: rest)
    else if width - slack < columns word then line.text :: word :: fromWords width {} rest
    else line.text :: fromWords width { words := [word], width := columns word } rest
termination_by 2 * (words.flatten.length + words.length) + if line.words = [] then 0 else 1
decreasing_by
  all_goals simp_wf
  · omega
  · split <;> omega
  · have occupied : line.words ≠ [] := by simp_all
    simp [occupied]
  · have filled : word ≠ [] := by
      rintro rfl
      simp_all [columns_nil]
    have shorter := length_cutSome_lt width filled
    have short := length_cut_le (width - line.filled) word
    split <;> omega
  · omega
  · omega

end Wrapped

/-- A line broken to a width. -/
def wrapped (width : Nat) (line : List Char) : List (List Char) :=
  Wrapped.fromWords width {} (line.splitOn ' ')

end ClassGraft.Text
