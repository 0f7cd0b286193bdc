/-
Method bodies as bytes.

The instructions are encoded first; their layout gives every position in the tables its offset.
-/
import ClassGraft.Code.Basic
import ClassGraft.Instruction.Encoding

namespace ClassGraft

def Handler.write (layout : Layout) (handler : Handler) : Except Fault Bytes := do
  let start ← layout.placeBytes handler.start
  let stop ← layout.placeBytes handler.stop
  let entry ← layout.placeBytes handler.entry
  return start ++ stop ++ entry ++ Bytes.ofU16 handler.catchType

def LineNumber.write (layout : Layout) (entry : LineNumber) : Except Fault Bytes := do
  return (← layout.placeBytes entry.start) ++ Bytes.ofU16 entry.line

/-- Writes a scope as its start and its length. -/
def LocalVariable.write (layout : Layout) (entry : LocalVariable) : Except Fault Bytes := do
  let start ← layout.place entry.start
  let stop ← layout.place entry.stop
  return BigEndian.encode 2 start ++ BigEndian.encode 2 (stop - start) ++
    Bytes.ofU16 entry.nameIndex ++ Bytes.ofU16 entry.descriptorIndex ++ Bytes.ofU16 entry.index

namespace CodeAttribute

/-- The attribute as a name and contents. -/
def toRaw (layout : Layout) : CodeAttribute → Except Fault RawAttribute
  | .lineNumbers nameIndex entries => do
    return ⟨nameIndex, ← Bytes.ofTableM (LineNumber.write layout) entries⟩
  | .localVariables nameIndex entries | .localVariableTypes nameIndex entries => do
    return ⟨nameIndex, ← Bytes.ofTableM (LocalVariable.write layout) entries⟩
  | .stackMap nameIndex frames => do return ⟨nameIndex, ← StackMap.write layout frames⟩
  | .other raw => .ok raw

def write (layout : Layout) (a : CodeAttribute) : Except Fault Bytes := do
  (← a.toRaw layout).write

end CodeAttribute

namespace Code

/-- The contents of the attribute that holds a method body; faults name `method`. -/
def write [Build] (code : Code) (method : String) : Except Fault Bytes := do
  let encoded ← encode method code.instructions
  let handlers ← Bytes.ofTableM (Handler.write encoded.layout) code.handlers
  let attributes ← Bytes.ofTableM (CodeAttribute.write encoded.layout) code.attributes
  return Bytes.ofU16 code.maxStack ++ Bytes.ofU16 code.maxLocals ++
    BigEndian.encode 4 encoded.bytes.length ++ encoded.bytes ++ handlers ++ attributes

end Code

end ClassGraft
