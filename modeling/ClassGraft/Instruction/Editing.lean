/-
Inserting and removing instructions.

An edit renumbers positions: inserting `count` instructions at a place moves every position
from there on (`Renumber.inserted`), removing one moves every position behind it
(`Renumber.removed`).  The targets of all instructions are renumbered together with the list,
and everything else that holds positions of the list is renumbered by the same functions.
-/
import ClassGraft.Instruction.Basic

namespace ClassGraft

namespace Renumber

/-- The new number of a position after `count` instructions have been inserted at `place`. -/
def inserted (place count position : Nat) : Nat :=
  if place ≤ position then position + count else position

/-- The new number of a position after the instruction at `place` has been removed; the removed
position itself falls to the next instruction. -/
def removed (place position : Nat) : Nat :=
  if place < position then position - 1 else position

theorem inserted_strictMono {place count p q : Nat} (h : p < q) :
    inserted place count p < inserted place count q := by
  unfold inserted
  split <;> split <;> omega

theorem removed_mono {place p q : Nat} (h : p ≤ q) : removed place p ≤ removed place q := by
  unfold removed
  split <;> split <;> omega

end Renumber

/-- The instructions of one method body. -/
abbrev Instructions := List Instruction

namespace Instructions

/-- Puts `sequence` in front of the instruction at `place`; the positions in `sequence` are
positions of the new list. -/
def insert (list : Instructions) (place : Nat) (sequence : Instructions) : Instructions :=
  let moved := list.map (Instruction.mapTargets (Renumber.inserted place sequence.length))
  moved.take place ++ sequence ++ moved.drop place

/-- Whether `count` instructions can be inserted at `place`, which is not behind the end of the
list: all targets can be counted afterwards. -/
def hasRoom (list : Instructions) (place count : Nat) : Bool :=
  place ≤ list.length && list.all fun i =>
    i.targets.all fun target => Renumber.inserted place count target < countLimit

/-- Puts `sequence` in front of the instruction at `place`, if there is room for it. -/
def insert? (list : Instructions) (place : Nat) (sequence : Instructions) :
    Option Instructions :=
  if Instructions.hasRoom list place sequence.length then
    some (Instructions.insert list place sequence)
  else none

/-- Takes the instruction at `place` out, if there is one. -/
def remove? (list : Instructions) (place : Nat) : Option (Instruction × Instructions) :=
  list[place]?.map fun removed =>
    (removed, (list.eraseIdx place).map (Instruction.mapTargets (Renumber.removed place)))

/-- Whether a branch or a switch goes to `position`. -/
def isTarget (list : Instructions) (position : Nat) : Bool :=
  list.any fun i => i.targets.contains position

end Instructions

end ClassGraft
