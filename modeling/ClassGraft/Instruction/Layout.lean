/-
Where instructions lie in a code array.

The size of an instruction depends on its offset only through the padding of a switch, so the
offsets of a list of instructions are running sums (`Layout.offsetsFrom`).  A `Layout` keeps
them with the end of the code as a last entry; it turns positions into offsets
(`Layout.offset?`) and offsets back into positions (`Layout.indexOf?`, by bisection).
-/
import ClassGraft.Instruction.Basic

namespace ClassGraft

/-- How many bytes of padding follow the opcode of a switch at `offset`. -/
def switchPadding (offset : Nat) : Nat := (4 - (offset + 1) % 4) % 4

theorem switchPadding_lt (offset : Nat) : switchPadding offset < 4 := by
  unfold switchPadding
  omega

/-- The operands of a switch start at a multiple of four. -/
theorem switchPadding_aligned (offset : Nat) : (offset + 1 + switchPadding offset) % 4 = 0 := by
  unfold switchPadding
  omega

/-- The padding of a switch at `offset`, if the offset behind its opcode can be counted. -/
def switchPadding? (offset : Nat) : Option Nat :=
  if offset + 1 < countLimit then some (switchPadding offset) else none

/-- Whether an opcode branches by a displacement of four bytes. -/
def Opcode.isFarBranch (op : Opcode) : Bool :=
  (Opcode.info? op).map OpcodeInfo.operands == some .branch32

/-- How many bytes an instruction takes at `offset`. -/
def Instruction.size (offset : Nat) : Instruction → Nat
  | .loadLocal index _ | .storeLocal index _ =>
    if index ≤ 3 then 1 else if index ≤ 255 then 2 else 4
  | .loadField .. | .storeField .. => 3
  | .invoke _ dispatch => if dispatch = .interface then 5 else 3
  | .pop | .pop2 | .exit _ => 1
  | .jump opcode _ => if opcode.isFarBranch then 5 else 3
  | .tableSwitch _ _ targets => 1 + switchPadding offset + 12 + 4 * targets.length
  | .lookupSwitch _ pairs => 1 + switchPadding offset + 8 + 8 * pairs.length
  | .other _ operands => 1 + operands.length

/-- How many bytes an instruction takes at `offset`, if its padding can be counted. -/
def Instruction.size? (offset : Nat) (i : Instruction) : Option Nat :=
  match i with
  | .tableSwitch .. | .lookupSwitch .. => (switchPadding? offset).map fun _ => i.size offset
  | _ => some (i.size offset)

theorem Instruction.size_pos (offset : Nat) (i : Instruction) : 0 < i.size offset := by
  unfold Instruction.size
  split <;> (repeat' split) <;> omega

/-- The offset of every instruction of a code array, and its length. -/
structure Layout where
  starts : Array Nat
  deriving DecidableEq, Repr

namespace Layout

/-- The offsets of instructions that begin at `offset`, and where they end. -/
def offsetsFrom (offset : Nat) : List Instruction → List Nat
  | [] => [offset]
  | i :: rest => offset :: offsetsFrom (offset + i.size offset) rest

/-- The layout of a list of instructions. -/
def ofInstructions (list : List Instruction) : Layout := ⟨(offsetsFrom 0 list).toArray⟩

/-- The layout of no code at all. -/
def empty : Layout := ⟨#[0]⟩

/-- The number of instructions. -/
def count (layout : Layout) : Nat := layout.starts.size - 1

/-- The offset of a position; the position after the last instruction has one too. -/
def offset? (layout : Layout) (position : Nat) : Option Nat := layout.starts[position]?

/-- The length of the code array. -/
def length (layout : Layout) : Nat := layout.starts.back?.getD 0

/-- Searches for `offset` among the ascending `starts` from `low` up to but not including
`high`. -/
def bisect (starts : Array Nat) (offset low high : Nat) : Option Nat :=
  if low < high then
    let middle := (low + high) / 2
    match starts[middle]? with
    | none => none
    | some start =>
      if start = offset then some middle
      else if start < offset then bisect starts offset (middle + 1) high
      else bisect starts offset low middle
  else none
termination_by high - low

/-- The position whose offset is `offset`; the end of the code counts as a position. -/
def indexOf? (layout : Layout) (offset : Nat) : Option Nat :=
  bisect layout.starts offset 0 layout.starts.size

end Layout

end ClassGraft
