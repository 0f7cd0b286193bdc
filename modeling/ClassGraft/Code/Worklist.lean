/-
First-in first-out worklists.

A worklist is two lists, so that taking and adding are cheap; `Worklist.toList` is the order in
which entries come out.
-/

namespace ClassGraft

/-- Entries in the order in which they were added. -/
structure Worklist (α : Type) where
  /-- The entries that come out first, in order. -/
  front : List α
  /-- The entries that come out after them, in reverse. -/
  back : List α

namespace Worklist

variable {α : Type}

def empty : Worklist α := ⟨[], []⟩

/-- The entries in order. -/
def toList (w : Worklist α) : List α := w.front ++ w.back.reverse

def push (w : Worklist α) (x : α) : Worklist α := ⟨w.front, x :: w.back⟩

/-- The first entry and the others. -/
def pop? (w : Worklist α) : Option (α × Worklist α) :=
  match w.front with
  | x :: front => some (x, ⟨front, w.back⟩)
  | [] =>
    match w.back.reverse with
    | x :: front => some (x, ⟨front, []⟩)
    | [] => none

@[simp] theorem toList_empty : (empty : Worklist α).toList = [] := rfl

@[simp] theorem toList_push (w : Worklist α) (x : α) : (w.push x).toList = w.toList ++ [x] := by
  simp [toList, push]

theorem toList_of_pop?_eq_some {w w' : Worklist α} {x : α} (h : w.pop? = some (x, w')) :
    w.toList = x :: w'.toList := by
  rcases w with ⟨_ | ⟨y, front⟩, back⟩
  · unfold pop? at h
    simp only at h
    split at h
    · next y front hrev =>
      obtain ⟨rfl, rfl⟩ := by simpa using h
      simp [toList, hrev]
    · exact absurd h (by simp)
  · obtain ⟨rfl, rfl⟩ := by simpa [pop?] using h
    rfl

theorem toList_of_pop?_eq_none {w : Worklist α} (h : w.pop? = none) : w.toList = [] := by
  rcases w with ⟨_ | ⟨y, front⟩, back⟩
  · unfold pop? at h
    simp only at h
    split at h
    · exact absurd h (by simp)
    · next hrev => simpa [toList] using hrev
  · exact absurd h (by simp [pop?])

end Worklist

end ClassGraft
