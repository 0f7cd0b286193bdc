/-
A method body in the making.

A `Draft` is a copy of a body with a copy of the constant pool that it refers to.  Steps on a
draft change both; a class takes them over only when all steps have succeeded.
`remeasure` brings the declared sizes of a changed body up to date.
-/
import ClassGraft.ClassFile.Basic
import ClassGraft.Code.StackDepth
import ClassGraft.Instruction.Encoding
import ClassGraft.Pool.Intern
import ClassGraft.Trace

namespace ClassGraft

/-- A body and the pool that it refers to. -/
structure Draft where
  code : Code
  pool : ConstantPool
  deriving DecidableEq, Repr

namespace Draft

/-- Runs a change of the pool. -/
def onPool {α : Type} (m : PoolEdit α) : Step Draft α := fun s =>
  match m s.value.pool with
  | .ok x pool => .ok x { s with value := { s.value with pool } }
  | .error fault pool => .error fault { s with value := { s.value with pool } }

/-- Takes over a changed body. -/
def setCode (code : Code) : Step Draft Unit := fun s =>
  .ok () { s with value := { s.value with code } }

end Draft

/-- The sizes of a body. -/
structure Maxima where
  maxStack : UInt16
  maxLocals : UInt16
  /-- The length of the encoded instructions. -/
  codeLength : Nat
  deriving DecidableEq, Repr

/-- Computes the sizes that the body of `method` has to declare.  The depth of the stack is that
of a survey, the number of locals never shrinks.  The body is encoded once, so that a branch that
has become too long is found here. -/
def remeasure [Build] (method : Method) : Step Draft Maxima := do
  let draft ← Step.current
  let depths ← Step.ofExcept (StackDepth.survey draft.code draft.pool method.name)
  let encoded ← Step.ofExcept (encode method.name draft.code.instructions)
  let maxStack := UInt16.ofNat depths.maxStack
  Draft.setCode { draft.code with maxStack }
  let slots ← Step.ofExcept method.parameterSlots
  let maxLocals := UInt16.ofNat (draft.code.localWatermark slots)
  Draft.setCode { draft.code with maxStack, maxLocals }
  let codeLength := encoded.bytes.length
  Step.note .debug <|
    s!"{method.name}: max_stack {maxStack.toNat}, max_locals {maxLocals.toNat}, " ++
    s!"{codeLength} bytes of code"
  return { maxStack, maxLocals, codeLength }

end ClassGraft
