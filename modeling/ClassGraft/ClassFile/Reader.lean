/-
Class files from bytes.

`ClassFile.ofBytes` reads a whole file; bytes behind it are a fault, and so is a file that ends
too early.  `ClassFile.ofDisk` reads what a disk answers.
-/
import ClassGraft.Bytes.Input
import ClassGraft.ClassFile.Basic
import ClassGraft.Code.Reader

namespace ClassGraft

variable [Build]

/-- The number that opens every class file. -/
def classMagic : UInt32 := 0xCAFEBABE

def Field.read (pool : ConstantPool) : Reader Field := do
  let access ← Reader.u16
  let nameIndex ← Reader.u16
  let descriptorIndex ← Reader.u16
  let name ← Reader.ofExcept (pool.utf8 nameIndex)
  let descriptor ← Reader.ofExcept (pool.utf8 descriptorIndex)
  let attributes ← Reader.table RawAttribute.read
  return { access, nameIndex, descriptorIndex, name, descriptor, attributes }

/-- Reads an attribute of a method; one of the name `Code` holds a body. -/
def MethodAttribute.read (pool : ConstantPool) : Reader MethodAttribute := do
  let raw ← RawAttribute.read
  let name ← Reader.ofExcept (pool.utf8 raw.nameIndex)
  if name = "Code" then
    return .code raw.nameIndex (← Reader.ofExcept (Code.parse pool raw.info))
  else return .other raw

def Method.read (pool : ConstantPool) : Reader Method := do
  let access ← Reader.u16
  let nameIndex ← Reader.u16
  let descriptorIndex ← Reader.u16
  let attributes ← Reader.table (MethodAttribute.read pool)
  let name ← Reader.ofExcept (pool.utf8 nameIndex)
  let descriptor ← Reader.ofExcept (pool.utf8 descriptorIndex)
  return { access, nameIndex, descriptorIndex, name, descriptor, attributes }

namespace ClassFile

/-- Reads the index of a class, whose name must be readable. -/
def readClass (pool : ConstantPool) : Reader UInt16 := do
  let index ← Reader.u16
  let _ ← Reader.ofExcept (pool.className index)
  return index

/-- Reads the index of the class above, 0 for none. -/
def readSuperClass (pool : ConstantPool) : Reader UInt16 := do
  let index ← Reader.u16
  if index ≠ 0 then
    let _ ← Reader.ofExcept (pool.className index)
  return index

/-- Reads a class file up to the end of the bytes. -/
def read : Reader ClassFile := do
  let magic ← Reader.u32
  if magic ≠ classMagic then Reader.malformed (.badMagic magic)
  else
    let minor ← Reader.u16
    let major ← Reader.u16
    let pool ← ConstantPool.read
    let access ← Reader.u16
    let thisClass ← readClass pool
    let superClass ← readSuperClass pool
    let interfaces ← Reader.table Reader.u16
    let fields ← Reader.table (Field.read pool)
    let methods ← Reader.table (Method.read pool)
    let attributes ← Reader.table RawAttribute.read
    let left ← Reader.remaining
    if left = 0 then
      return ⟨minor, major, pool, access, thisClass, superClass, interfaces, fields, methods,
        attributes⟩
    else Reader.malformed (.classTrailing left)

/-- A file that ends too early is named by its length. -/
def nameTruncation (length : Nat) : Fault → Fault
  | .outOfBounds => .malformed (.truncated length)
  | fault => fault

/-- The class file that bytes hold. -/
def ofBytes (bytes : Bytes) : Except Fault ClassFile :=
  if bytes.isEmpty then .error .empty
  else (read.eval bytes).mapError (nameTruncation bytes.length)

/-- The class file that a disk answers. -/
def ofDisk (answer : Except FileFault Bytes) : Except Fault ClassFile := do
  ofBytes (← Input.ofDisk answer).bytes

end ClassFile

end ClassGraft
