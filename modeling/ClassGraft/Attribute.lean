/-
Attributes: named blocks of bytes that classes, fields, methods and code arrays carry.

An attribute is a pool index for its name, a four-byte length and so many bytes.  Attributes
that the library has no use for stay a `RawAttribute` and are written back as they were read.
-/
import ClassGraft.Bytes.Reader
import ClassGraft.Bytes.Writer

namespace ClassGraft

/-- An attribute whose contents are kept as bytes. -/
structure RawAttribute where
  nameIndex : UInt16
  info : Bytes
  deriving DecidableEq, Repr

namespace RawAttribute

def read : Reader RawAttribute := do
  let nameIndex ← Reader.u16
  let length ← Reader.u32
  return ⟨nameIndex, ← Reader.bytes length.toNat⟩

/-- The name, the length of the contents and the contents. -/
def write (raw : RawAttribute) : Except Fault Bytes :=
  let length := raw.info.length
  if length < 4294967296 then
    .ok (Bytes.ofU16 raw.nameIndex ++ BigEndian.encode 4 length ++ raw.info)
  else .error (.malformed (.attributeTooLarge length))

end RawAttribute

end ClassGraft
