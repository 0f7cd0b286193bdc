/-
Method bodies.

A `Code` is the list of instructions of a method with the tables that belong to it: exception
handlers, line numbers, scopes of local variables and stack map frames.  All of them hold
positions in the list of instructions, and all positions outside the list are renumbered by one
function, `Code.mapPositions`.
-/
import ClassGraft.Attribute
import ClassGraft.Code.Frame
import ClassGraft.Instruction.Editing

namespace ClassGraft

/-- A range of instructions whose exceptions go to an entry. -/
structure Handler where
  /-- The first instruction of the range. -/
  start : Nat
  /-- The position behind the range. -/
  stop : Nat
  /-- The instruction that exceptions go to. -/
  entry : Nat
  /-- The class of exceptions, 0 for all. -/
  catchType : UInt16
  deriving DecidableEq, Repr

/-- The instruction at which the code of a source line starts. -/
structure LineNumber where
  start : Nat
  line : UInt16
  deriving DecidableEq, Repr

/-- The range of instructions in which a local variable is in scope. -/
structure LocalVariable where
  start : Nat
  stop : Nat
  nameIndex : UInt16
  descriptorIndex : UInt16
  index : UInt16
  deriving DecidableEq, Repr

/-- An attribute of a method body. -/
inductive CodeAttribute where
  | lineNumbers (nameIndex : UInt16) (entries : List LineNumber)
  | localVariables (nameIndex : UInt16) (entries : List LocalVariable)
  | localVariableTypes (nameIndex : UInt16) (entries : List LocalVariable)
  | stackMap (nameIndex : UInt16) (frames : List StackMapFrame)
  | other (raw : RawAttribute)
  deriving DecidableEq, Repr

/-- A method body. -/
structure Code where
  maxStack : UInt16
  maxLocals : UInt16
  instructions : Instructions
  handlers : List Handler
  attributes : List CodeAttribute
  deriving DecidableEq, Repr

def Handler.mapPositions (f : Nat → Nat) (handler : Handler) : Handler :=
  { handler with start := f handler.start, stop := f handler.stop, entry := f handler.entry }

def LineNumber.mapPositions (f : Nat → Nat) (entry : LineNumber) : LineNumber :=
  { entry with start := f entry.start }

def LocalVariable.mapPositions (f : Nat → Nat) (entry : LocalVariable) : LocalVariable :=
  { entry with start := f entry.start, stop := f entry.stop }

def CodeAttribute.mapPositions (f : Nat → Nat) : CodeAttribute → CodeAttribute
  | .lineNumbers nameIndex entries =>
    .lineNumbers nameIndex (entries.map (LineNumber.mapPositions f))
  | .localVariables nameIndex entries =>
    .localVariables nameIndex (entries.map (LocalVariable.mapPositions f))
  | .localVariableTypes nameIndex entries =>
    .localVariableTypes nameIndex (entries.map (LocalVariable.mapPositions f))
  | .stackMap nameIndex frames => .stackMap nameIndex (frames.map (StackMapFrame.mapPositions f))
  | .other raw => .other raw

namespace CodeAttribute

/-- The stack map frames that the attribute holds. -/
def frames : CodeAttribute → List StackMapFrame
  | .stackMap _ frames => frames
  | _ => []

/-- The line numbers that the attribute holds. -/
def lines : CodeAttribute → List LineNumber
  | .lineNumbers _ entries => entries
  | _ => []

/-- The attribute without line numbers from `limit` on. -/
def dropLinesFrom (limit : Nat) : CodeAttribute → CodeAttribute
  | .lineNumbers nameIndex entries =>
    .lineNumbers nameIndex (entries.filter fun entry => entry.start < limit)
  | a => a

end CodeAttribute

namespace Code

/-- The body with the positions in all tables renumbered; the instructions stay. -/
def mapPositions (f : Nat → Nat) (code : Code) : Code :=
  { code with
    handlers := code.handlers.map (Handler.mapPositions f)
    attributes := code.attributes.map (CodeAttribute.mapPositions f) }

/-- All line numbers, in the order of the tables. -/
def lines (code : Code) : List LineNumber := code.attributes.flatMap CodeAttribute.lines

/-- All stack map frames, in the order of the tables. -/
def frames (code : Code) : List StackMapFrame := code.attributes.flatMap CodeAttribute.frames

/-! ### Editing -/

/-- Puts instructions in front of the one at `place`. -/
def insert (code : Code) (place : Nat) (sequence : Instructions) : Code :=
  { code.mapPositions (Renumber.inserted place sequence.length) with
    instructions := Instructions.insert code.instructions place sequence }

/-- Puts instructions in front of the one at `place`, if there is room for them. -/
def insert? (code : Code) (place : Nat) (sequence : Instructions) : Option Code :=
  if Instructions.hasRoom code.instructions place sequence.length then
    some (code.insert place sequence)
  else none

/-- Whether a branch, a switch, a handler or a frame needs the instruction at a position. -/
def isReferenced (code : Code) (position : Nat) : Bool :=
  Instructions.isTarget code.instructions position ||
    code.handlers.any (fun handler => handler.start == position || handler.entry == position) ||
    code.frames.any fun frame => frame.references position

/-- The body without the instruction at `place`, which nothing refers to.  Line numbers that
would start behind the last instruction go with it. -/
def withoutInstruction (code : Code) (place : Nat) (list : Instructions) : Code :=
  let moved := code.mapPositions (Renumber.removed place)
  { moved with
    instructions := list
    attributes := moved.attributes.map (CodeAttribute.dropLinesFrom list.length) }

/-- Takes the instruction at `place` out; refused where something refers to it. -/
def remove (code : Code) (method : String) (place : Nat) : Except Fault (Instruction × Code) :=
  match Instructions.remove? code.instructions place with
  | none => .error (.inconsistent method place .nothingToRemove)
  | some (removed, list) =>
    if code.isReferenced place then
      .error (.inconsistent method place (.stillReferenced removed.text))
    else .ok (removed, code.withoutInstruction place list)

/-! ### Local variables -/

/-- The number of local slots that a body needs: those it declares, those of the parameters
and all that its instructions touch, as far as two bytes can count. -/
def localWatermark (code : Code) (parameterSlots : Nat) : Nat :=
  let touched := code.instructions.filterMap Instruction.localAccess
  (touched.map fun (index, width) => min (index.toNat + width) 65535).foldl max
    (max code.maxLocals.toNat parameterSlots)

end Code

end ClassGraft
