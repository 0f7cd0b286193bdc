/-
Instructions as bytes.

`encode` lays a list of instructions out and writes each one at its offset.  It fails when the
code is too long, a target is no instruction, a two-byte displacement does not fit, a call
through an interface takes too many argument slots, or the cases of a table switch run past the
largest key.
-/
import ClassGraft.Instruction.Layout
import ClassGraft.Descriptor.Basic
import ClassGraft.Bytes.Writer

namespace ClassGraft

variable [Build]

/-- The most bytes that a code array may have. -/
def maxCodeLength : Nat := 65535

/-- The place at which an instruction is written, for displacements and faults. -/
structure Site where
  method : String
  index : Nat
  offset : Nat

namespace Site

/-- How far a target lies from the instruction. -/
def displacement (site : Site) (layout : Layout) (target : Nat) : Except Fault Int :=
  if target < layout.count then
    match layout.offset? target with
    | some offset => .ok (offset - site.offset)
    | none => .error (.malformed (.missingTarget site.index site.method target))
  else .error (.malformed (.missingTarget site.index site.method target))

/-- The displacement in two bytes. -/
def near (site : Site) (layout : Layout) (target : Nat) : Except Fault Bytes := do
  let delta ← site.displacement layout target
  if -32768 ≤ delta ∧ delta ≤ 32767 then return Bytes.ofI16 (Int16.ofInt delta)
  else throw (.branchOutOfRange site.method site.index delta)

/-- The displacement in four bytes; no two offsets of a code array lie too far apart. -/
def far (site : Site) (layout : Layout) (target : Nat) : Except Fault Bytes := do
  return Bytes.ofI32 (Int32.ofInt (← site.displacement layout target))

end Site

namespace Instruction

/-- The access to a local: by an opcode of its own, with a one-byte operand, or widened. -/
def localBytes (index : UInt16) (short long : Opcode) : Bytes :=
  if index ≤ 3 then [short + index.toUInt8]
  else if index ≤ 255 then [long, index.toUInt8]
  else Opcode.wide :: long :: Bytes.ofU16 index

/-- The operands that follow the constant of a call through an interface: the slots that the
arguments take with the receiver, and a zero. -/
def interfaceTail (descriptor : String) : Except Fault Bytes := do
  let slots ← (← MethodDescriptor.parse descriptor).callSlots true
  if slots ≤ 255 then return [UInt8.ofNat slots, 0]
  else throw (.invalidDescriptor s!"{descriptor} takes too many argument slots")

/-- The padding of a switch. -/
def paddingBytes (offset : Nat) : Bytes := List.replicate (switchPadding offset) 0

/-- The bytes of an instruction at its place. -/
def encodeAt (layout : Layout) (site : Site) (i : Instruction) : Except Fault Bytes :=
  match i with
  | .loadLocal index kind => return localBytes index (Opcode.loadShort kind) (Opcode.load kind)
  | .storeLocal index kind => return localBytes index (Opcode.storeShort kind) (Opcode.store kind)
  | .loadField field _ | .storeField field _ => return i.opcode :: Bytes.ofU16 field.index
  | .invoke method dispatch => do
    let tail ← if dispatch = .interface then interfaceTail method.descriptor else pure []
    return i.opcode :: Bytes.ofU16 method.index ++ tail
  | .pop | .pop2 | .exit _ => return [i.opcode]
  | .jump opcode target => do
    if opcode.isFarBranch then return opcode :: (← site.far layout target)
    else return opcode :: (← site.near layout target)
  | .tableSwitch default low targets => do
    let otherwise ← site.far layout default
    let high := low.toInt + targets.length - 1
    if -2147483648 ≤ high ∧ high ≤ 2147483647 then
      let cases ← Bytes.concatMapM (site.far layout) targets
      return Opcode.tableswitch :: paddingBytes site.offset ++ otherwise ++ Bytes.ofI32 low
        ++ Bytes.ofI32 (Int32.ofInt high) ++ cases
    else throw (.malformed (.tooManySwitchTargets site.method))
  | .lookupSwitch default pairs => do
    let otherwise ← site.far layout default
    let cases ← Bytes.concatMapM
      (fun (key, target) => do return Bytes.ofI32 key ++ (← site.far layout target)) pairs
    return Opcode.lookupswitch :: paddingBytes site.offset ++ otherwise
      ++ BigEndian.encode 4 pairs.length ++ cases
  | .other opcode operands => return opcode :: operands

end Instruction

/-- A code array and where the instructions lie in it. -/
structure Encoded where
  bytes : Bytes
  layout : Layout
  deriving DecidableEq, Repr

/-- The bytes of instructions, the first of which has the given index and offset. -/
def encodeFrom (method : String) (layout : Layout) :
    Nat → Nat → List Instruction → List Bytes → Except Fault Bytes
  | _, _, [], done => .ok done.reverse.flatten
  | index, offset, i :: rest, done => do
    let bytes ← i.encodeAt layout ⟨method, index, offset⟩
    encodeFrom method layout (index + 1) (offset + i.size offset) rest (bytes :: done)

/-- The code array of a list of instructions; faults name `method`. -/
def encode (method : String) (list : List Instruction) : Except Fault Encoded := do
  let layout := Layout.ofInstructions list
  if layout.length ≤ maxCodeLength then
    return ⟨← encodeFrom method layout 0 0 list [], layout⟩
  else throw (.malformed (.codeTooLong method layout.length maxCodeLength))

end ClassGraft
