/-
Class files as bytes.

Every part is written from the model; a body is encoded anew, so the only faults are those of
encoding, of a text that is too long for the pool, and of positions that have no offset.
-/
import ClassGraft.ClassFile.Reader
import ClassGraft.Code.Writer

namespace ClassGraft

variable [Build]

def Field.write (field : Field) : Except Fault Bytes := do
  let attributes ← Bytes.ofTableM RawAttribute.write field.attributes
  return Bytes.ofU16 field.access ++ Bytes.ofU16 field.nameIndex ++
    Bytes.ofU16 field.descriptorIndex ++ attributes

/-- Writes an attribute of the method `name`. -/
def MethodAttribute.write (name : String) : MethodAttribute → Except Fault Bytes
  | .code nameIndex body => do
    let raw : RawAttribute := ⟨nameIndex, ← body.write name⟩
    raw.write
  | .other raw => raw.write

def Method.write (method : Method) : Except Fault Bytes := do
  let attributes ← Bytes.ofTableM (MethodAttribute.write method.name) method.attributes
  return Bytes.ofU16 method.access ++ Bytes.ofU16 method.nameIndex ++
    Bytes.ofU16 method.descriptorIndex ++ attributes

/-- The bytes of a class file. -/
def ClassFile.toBytes (c : ClassFile) : Except Fault Bytes := do
  let pool ← c.pool.write
  let fields ← Bytes.ofTableM Field.write c.fields
  let methods ← Bytes.ofTableM Method.write c.methods
  let attributes ← Bytes.ofTableM RawAttribute.write c.attributes
  return Bytes.ofU32 classMagic ++ Bytes.ofU16 c.minor ++ Bytes.ofU16 c.major ++ pool ++
    Bytes.ofU16 c.access ++ Bytes.ofU16 c.thisClass ++ Bytes.ofU16 c.superClass ++
    Bytes.ofTable Bytes.ofU16 c.interfaces ++ fields ++ methods ++ attributes

end ClassGraft
