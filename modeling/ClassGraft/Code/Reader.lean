/-
Method bodies from bytes.

Offsets in the tables become positions as soon as they are read.  The name of an attribute
decides how its contents are read; attributes of other names stay as they are.
-/
import ClassGraft.Code.Basic
import ClassGraft.Instruction.Decoding

namespace ClassGraft

/-- The names of the attributes that hold positions. -/
inductive CodeAttributeKind where
  | lineNumbers
  | localVariables
  | localVariableTypes
  | stackMap
  deriving DecidableEq, Repr

/-- The kind of attribute that a name announces. -/
def CodeAttributeKind.ofName? : String → Option CodeAttributeKind
  | "LineNumberTable" => some .lineNumbers
  | "LocalVariableTable" => some .localVariables
  | "LocalVariableTypeTable" => some .localVariableTypes
  | "StackMapTable" => some .stackMap
  | _ => none

namespace Handler

/-- Reads a handler of a body with the given layout. -/
def read (layout : Layout) : Reader Handler := do
  let start ← layout.readPosition .handlerStart
  let stop ← layout.readPosition .handlerEnd
  let entry ← layout.readPosition .handlerEntry
  if start < stop ∧ entry < layout.count then return ⟨start, stop, entry, ← Reader.u16⟩
  else Reader.malformed (.invalidHandler start stop entry)

end Handler

namespace LineNumber

def read (layout : Layout) : Reader LineNumber := do
  let start ← layout.readPosition .lineNumber
  return ⟨start, ← Reader.u16⟩

/-- The contents of a line number attribute. -/
def readAll (layout : Layout) : Reader (List LineNumber) := do
  let entries ← Reader.table (read layout)
  if ← Reader.more then Reader.malformed .lineTableTrailing else return entries

end LineNumber

namespace LocalVariable

/-- Reads a scope; the file holds where it starts and how long it is. -/
def read (layout : Layout) : Reader LocalVariable := do
  let startOffset := (← Reader.u16).toNat
  let length := (← Reader.u16).toNat
  let start ← Reader.ofExcept (layout.position .variableStart startOffset)
  let stop ← Reader.ofExcept (layout.position .variableEnd (startOffset + length))
  let nameIndex ← Reader.u16
  let descriptorIndex ← Reader.u16
  return ⟨start, stop, nameIndex, descriptorIndex, ← Reader.u16⟩

/-- The contents of an attribute with scopes. -/
def readAll (layout : Layout) : Reader (List LocalVariable) := do
  let entries ← Reader.table (read layout)
  if ← Reader.more then Reader.malformed .variableTableTrailing else return entries

end LocalVariable

namespace CodeAttribute

/-- The attribute whose name and contents are given. -/
def ofRaw (layout : Layout) (name : String) (raw : RawAttribute) : Except Fault CodeAttribute :=
  match CodeAttributeKind.ofName? name with
  | some .lineNumbers => do
    return .lineNumbers raw.nameIndex (← (LineNumber.readAll layout).eval raw.info)
  | some .localVariables => do
    return .localVariables raw.nameIndex (← (LocalVariable.readAll layout).eval raw.info)
  | some .localVariableTypes => do
    return .localVariableTypes raw.nameIndex (← (LocalVariable.readAll layout).eval raw.info)
  | some .stackMap => do return .stackMap raw.nameIndex (← StackMap.parse layout raw.info)
  | none => .ok (.other raw)

def read (pool : ConstantPool) (layout : Layout) : Reader CodeAttribute := do
  let raw ← RawAttribute.read
  let name ← Reader.ofExcept (pool.utf8 raw.nameIndex)
  Reader.ofExcept (ofRaw layout name raw)

end CodeAttribute

namespace Code

/-- Reads a method body up to the end of the bytes. -/
def read [Build] (pool : ConstantPool) : Reader Code := do
  let maxStack ← Reader.u16
  let maxLocals ← Reader.u16
  let length ← Reader.u32
  if length = 0 then Reader.malformed .emptyCode
  else
    let decoded ← Reader.ofExcept (decode pool (← Reader.bytes length.toNat))
    let handlers ← Reader.table (Handler.read decoded.layout)
    let attributes ← Reader.table (CodeAttribute.read pool decoded.layout)
    let left ← Reader.remaining
    if left = 0 then
      return { maxStack, maxLocals, instructions := decoded.instructions, handlers, attributes }
    else Reader.malformed (.codeTrailing left)

/-- The method body in the bytes of an attribute. -/
def parse [Build] (pool : ConstantPool) (body : Bytes) : Except Fault Code := (read pool).eval body

end Code

end ClassGraft
