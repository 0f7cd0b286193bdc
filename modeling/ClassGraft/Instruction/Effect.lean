/-
What an instruction does to the operand stack, counted in slots.

Most effects stand in the opcode table.  Those of field accesses and calls follow from the
descriptor of the member, whether the instruction holds the member itself or only its index in
the constant pool; `multianewarray` pops as many counts as its operand says, and `wide` has the
effect of the instruction that it widens.
-/
import ClassGraft.Instruction.Basic
import ClassGraft.Descriptor.Basic

namespace ClassGraft

variable [Build]

/-- Slots popped, then slots pushed. -/
structure StackEffect where
  pops : Nat
  pushes : Nat
  deriving DecidableEq, Repr

namespace StackEffect

/-- The effect that the opcode table states. -/
def ofTable (op : Opcode) : Except Fault StackEffect :=
  match Opcode.info? op with
  | some { pops := some pops, pushes := some pushes, .. } => .ok ⟨pops, pushes⟩
  | _ => .error (.malformed (.noFixedEffect op))

/-- Reading a field: the object is popped unless the field is static. -/
def ofLoad (descriptor : String) (isStatic : Bool) : Except Fault StackEffect := do
  let width := (← FieldType.parse descriptor).slots
  return ⟨if isStatic then 0 else 1, width⟩

/-- Writing a field: the object is popped as well unless the field is static. -/
def ofStore (descriptor : String) (isStatic : Bool) : Except Fault StackEffect := do
  let width := (← FieldType.parse descriptor).slots
  return ⟨if isStatic then width else width + 1, 0⟩

/-- A call: the receiver, if there is one, is popped with the arguments. -/
def ofCall (descriptor : String) (hasReceiver : Bool) : Except Fault StackEffect := do
  let d ← MethodDescriptor.parse descriptor
  return ⟨← d.callSlots hasReceiver, d.resultSlots⟩

/-- The pool index in the first two operand bytes. -/
def poolOperand : Bytes → Except Fault UInt16
  | high :: low :: _ => .ok (UInt16.ofNat (BigEndian.decode [high, low]))
  | _ => .error (.malformed .missingPoolOperand)

/-- The effect of an opcode with its operand bytes. -/
def ofBytes (pool : ConstantPool) (op : Opcode) (operands : Bytes) :
    Except Fault StackEffect :=
  if Opcode.getstatic ≤ op ∧ op ≤ Opcode.putfield then do
    let field ← pool.memberRef (← poolOperand operands)
    if op = Opcode.getstatic then ofLoad field.descriptor true
    else if op = Opcode.getfield then ofLoad field.descriptor false
    else if op = Opcode.putstatic then ofStore field.descriptor true
    else ofStore field.descriptor false
  else if Opcode.invokevirtual ≤ op ∧ op ≤ Opcode.invokeinterface then do
    let method ← pool.memberRef (← poolOperand operands)
    ofCall method.descriptor (op ≠ Opcode.invokestatic)
  else if op = Opcode.invokedynamic then do
    ofCall (← pool.callSite (← poolOperand operands)) false
  else if op = Opcode.multianewarray then
    match operands[2]? with
    | some dimensions => .ok ⟨dimensions.toNat, 1⟩
    | none => .error (.malformed .arrayWithoutDimensions)
  else if op = Opcode.wide then
    match operands with
    | modified :: _ =>
      if modified = Opcode.iinc ∨ modified = Opcode.ret then .ok ⟨0, 0⟩ else ofTable modified
    | [] => .error (.malformed .wideWithoutOpcode)
  else ofTable op

end StackEffect

/-- The effect of an instruction. -/
def Instruction.stackEffect (pool : ConstantPool) (i : Instruction) : Except Fault StackEffect :=
  match i with
  | .loadLocal _ kind => .ok ⟨0, kind.width⟩
  | .storeLocal _ kind => .ok ⟨kind.width, 0⟩
  | .loadField field isStatic => StackEffect.ofLoad field.descriptor isStatic
  | .storeField field isStatic => StackEffect.ofStore field.descriptor isStatic
  | .invoke method dispatch => StackEffect.ofCall method.descriptor (dispatch ≠ .static)
  | .pop => .ok ⟨1, 0⟩
  | .pop2 => .ok ⟨2, 0⟩
  | .exit kind => .ok ⟨(kind.map ValueKind.width).getD 0, 0⟩
  | .jump .. | .tableSwitch .. | .lookupSwitch .. => StackEffect.ofTable i.opcode
  | .other opcode operands => StackEffect.ofBytes pool opcode operands

end ClassGraft
