/-
Code offsets in tables.

Tables beside a code array hold offsets; in memory they hold positions in the list of
instructions.  An offset that is neither the start of an instruction nor the end of the code is
refused (`Layout.position`); on writing every position has an offset that fits two bytes
(`Layout.place`).
-/
import ClassGraft.Instruction.Layout
import ClassGraft.Bytes.Reader
import ClassGraft.Bytes.Writer

namespace ClassGraft

namespace Layout

/-- The position whose offset stands in a table. -/
def position (layout : Layout) (place : Anchorage) (offset : Nat) : Except Fault Nat :=
  match layout.indexOf? offset with
  | some position => .ok position
  | none => .error (.malformed (.offBoundary place offset))

/-- Reads an offset as a position. -/
def readPosition (layout : Layout) (place : Anchorage) : Reader Nat := do
  Reader.ofExcept (layout.position place (← Reader.u16).toNat)

/-- The offset of a position, if it fits a table. -/
def place (layout : Layout) (position : Nat) : Except Fault Nat :=
  match layout.offset? position with
  | some offset =>
    if offset ≤ 65535 then .ok offset else .error (.malformed (.noOffset position))
  | none => .error (.malformed (.noOffset position))

/-- The bytes of a position in a table. -/
def placeBytes (layout : Layout) (position : Nat) : Except Fault Bytes :=
  (layout.place position).map (BigEndian.encode 2)

end Layout

end ClassGraft
