/-
Clusters of characters.

`clusters` splits a text into what a reader takes for its characters: each cluster is a character
with those that belong to it (`Cluster.Kind`).  A text is read from its start; `Cluster.Ending` is
what the cluster that is open ends with, and `Cluster.Ending.join?` says whether the next
character belongs to it.

Nothing is lost (`flatten_clusters`).
-/
import ClassGraft.Text.Cluster.Kind

namespace ClassGraft.Text

namespace Cluster

/-- What a cluster ends with, as far as the next character may belong to it. -/
inductive Ending where
  /-- Nothing joins this. -/
  | closed
  /-- The end of a line, which a line feed finishes. -/
  | carriageReturn
  /-- Marks join this. -/
  | plain
  /-- A mark that belongs to the character behind it. -/
  | leading
  /-- The initial consonant of a Hangul syllable. -/
  | hangulInitial
  /-- The vowel of a Hangul syllable. -/
  | hangulVowel
  /-- The final consonant of a Hangul syllable. -/
  | hangulFinal
  /-- A letter of a flag that is the first of two. -/
  | flagLetter
  /-- A consonant of a conjunct with its marks. -/
  | consonant
  /-- A consonant of a conjunct with its marks, a linker among them. -/
  | linked
  /-- A picture with its marks. -/
  | pictograph
  /-- A picture with its marks and a joiner. -/
  | joinedPictograph
  deriving DecidableEq, Repr

namespace Ending

/-- What a cluster ends with that a character has just opened. -/
def opened : Kind → Ending
  | .carriageReturn => .carriageReturn
  | .lineFeed | .control => .closed
  | .leading => .leading
  | .flagLetter => .flagLetter
  | .hangulInitial => .hangulInitial
  | .hangulVowel | .openSyllable => .hangulVowel
  | .hangulFinal | .closedSyllable => .hangulFinal
  | .consonant => .consonant
  | .pictograph => .pictograph
  | .extending | .linker | .nonJoiner | .joiner | .spacing | .other => .plain

/-- What a cluster ends with behind a mark that extends it. -/
def extended : Ending → Kind → Ending
  | .consonant, .extending | .consonant, .joiner => .consonant
  | .consonant, .linker => .linked
  | .linked, .extending | .linked, .joiner | .linked, .linker => .linked
  | .pictograph, .joiner => .joinedPictograph
  | .pictograph, .extending | .pictograph, .linker | .pictograph, .nonJoiner => .pictograph
  | _, _ => .plain

/-- Whether a character that is not a mark belongs to the cluster in front. -/
def takes : Ending → Kind → Bool
  | .leading, _ => true
  | .hangulInitial, kind =>
    kind == .hangulInitial || kind == .hangulVowel || kind == .openSyllable
      || kind == .closedSyllable
  | .hangulVowel, kind => kind == .hangulVowel || kind == .hangulFinal
  | .hangulFinal, kind => kind == .hangulFinal
  | .flagLetter, kind => kind == .flagLetter
  | .linked, kind => kind == .consonant
  | .joinedPictograph, kind => kind == .pictograph
  | _, _ => false

/-- What a cluster ends with once a character belongs to it, or nothing if the character opens
another. -/
def join? (ending : Ending) (kind : Kind) : Option Ending :=
  match ending, kind with
  | .closed, _ => none
  | .carriageReturn, .lineFeed => some .closed
  | .carriageReturn, _ | _, .carriageReturn | _, .lineFeed | _, .control => none
  | ending, .extending | ending, .linker | ending, .nonJoiner | ending, .joiner =>
    some (ending.extended kind)
  | _, .spacing => some .plain
  | .flagLetter, .flagLetter => some .plain
  | ending, kind => if ending.takes kind then some (opened kind) else none

end Ending

/-- What belongs to the cluster that is open, and the clusters behind it. -/
def split (ending : Ending) : List Char → List Char × List (List Char)
  | [] => ([], [])
  | c :: rest =>
    let kind := Kind.of c
    match ending.join? kind with
    | some next =>
      let (start, others) := split next rest
      (c :: start, others)
    | none =>
      let (start, others) := split (.opened kind) rest
      ([], (c :: start) :: others)

theorem split_append (ending : Ending) (text : List Char) :
    (split ending text).1 ++ (split ending text).2.flatten = text := by
  induction text generalizing ending with
  | nil => rfl
  | cons c rest ih =>
    rw [split]
    split
    · simpa using ih _
    · simpa using ih _

end Cluster

/-- A text in clusters. -/
def clusters (text : List Char) : List (List Char) := (Cluster.split .closed text).2

/-- Nothing is lost where a text is split into clusters. -/
theorem flatten_clusters (text : List Char) : (clusters text).flatten = text := by
  have whole := Cluster.split_append .closed text
  have first : (Cluster.split .closed text).1 = [] := by
    cases text <;> rfl
  simpa [clusters, first] using whole

end ClassGraft.Text
