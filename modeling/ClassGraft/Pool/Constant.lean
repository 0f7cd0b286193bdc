/-
Constants.

A constant is one tag byte and a body whose form the tag decides.  `Constant.read` and
`Constant.write` are the two directions; the only constant that cannot be written is a text of
more than 65535 bytes.  Indices of other constants are kept as they stand in the file, and
`Constant.references` lists them with the kind that each must have.
-/
import ClassGraft.Bytes.Reader
import ClassGraft.Bytes.Writer

namespace ClassGraft

/-- One entry of a constant pool.  Numbers of the floating kinds are kept as bit patterns. -/
inductive Constant where
  | utf8 (bytes : Bytes)
  | integer (value : Int32)
  | float (bits : UInt32)
  | long (value : Int64)
  | double (bits : UInt64)
  | classRef (name : UInt16)
  | string (text : UInt16)
  | fieldRef (owner nameAndType : UInt16)
  | methodRef (owner nameAndType : UInt16)
  | interfaceMethodRef (owner nameAndType : UInt16)
  | nameAndType (name descriptor : UInt16)
  | methodHandle (kind : UInt8) (target : UInt16)
  | methodType (descriptor : UInt16)
  | dynamic (bootstrap nameAndType : UInt16)
  | invokeDynamic (bootstrap nameAndType : UInt16)
  | module (name : UInt16)
  | package (name : UInt16)
  deriving DecidableEq, Repr

namespace Constant

def kind : Constant → ConstantKind
  | .utf8 _ => .utf8
  | .integer _ => .integer
  | .float _ => .float
  | .long _ => .long
  | .double _ => .double
  | .classRef _ => .classRef
  | .string _ => .string
  | .fieldRef _ _ => .fieldRef
  | .methodRef _ _ => .methodRef
  | .interfaceMethodRef _ _ => .interfaceMethodRef
  | .nameAndType _ _ => .nameAndType
  | .methodHandle _ _ => .methodHandle
  | .methodType _ => .methodType
  | .dynamic _ _ => .dynamic
  | .invokeDynamic _ _ => .invokeDynamic
  | .module _ => .module
  | .package _ => .package

def tag (c : Constant) : UInt8 := c.kind.tag

/-- Whether the constant takes two slots of the pool. -/
def wide (c : Constant) : Bool := c.kind.wide

/-- The body of a constant of a given kind. -/
def readBody : ConstantKind → Reader Constant
  | .utf8 => do return .utf8 (← Reader.bytes (← Reader.u16).toNat)
  | .integer => do return .integer (← Reader.i32)
  | .float => do return .float (← Reader.u32)
  | .long => do return .long (← Reader.i64)
  | .double => do return .double (← Reader.u64)
  | .classRef => do return .classRef (← Reader.u16)
  | .string => do return .string (← Reader.u16)
  | .fieldRef => do return .fieldRef (← Reader.u16) (← Reader.u16)
  | .methodRef => do return .methodRef (← Reader.u16) (← Reader.u16)
  | .interfaceMethodRef => do return .interfaceMethodRef (← Reader.u16) (← Reader.u16)
  | .nameAndType => do return .nameAndType (← Reader.u16) (← Reader.u16)
  | .methodHandle => do return .methodHandle (← Reader.u8) (← Reader.u16)
  | .methodType => do return .methodType (← Reader.u16)
  | .dynamic => do return .dynamic (← Reader.u16) (← Reader.u16)
  | .invokeDynamic => do return .invokeDynamic (← Reader.u16) (← Reader.u16)
  | .module => do return .module (← Reader.u16)
  | .package => do return .package (← Reader.u16)

/-- A tag and the body that it announces. -/
def read : Reader Constant := do
  let place ← Reader.pos
  let tag ← Reader.u8
  match ConstantKind.ofTag? tag with
  | some kind => readBody kind
  | none => Reader.malformed (.unknownTag tag place)

/-- The bytes after the tag. -/
def bodyBytes : Constant → Bytes
  | .utf8 bytes => BigEndian.encode 2 bytes.length ++ bytes
  | .integer value => Bytes.ofI32 value
  | .float bits => Bytes.ofU32 bits
  | .long value => Bytes.ofU64 value.toUInt64
  | .double bits => Bytes.ofU64 bits
  | .classRef a | .string a | .methodType a | .module a | .package a => Bytes.ofU16 a
  | .fieldRef a b | .methodRef a b | .interfaceMethodRef a b | .nameAndType a b
  | .dynamic a b | .invokeDynamic a b => Bytes.ofU16 a ++ Bytes.ofU16 b
  | .methodHandle kind a => kind :: Bytes.ofU16 a

/-- Whether the constant has a written form: a text must fit its two-byte length. -/
def writable : Constant → Bool
  | .utf8 bytes => bytes.length ≤ 65535
  | _ => true

def write (c : Constant) : Except Fault Bytes :=
  match c with
  | .utf8 bytes =>
    if bytes.length ≤ 65535 then .ok (c.tag :: c.bodyBytes)
    else .error (.malformed (.utf8TooLong bytes.length))
  | _ => .ok (c.tag :: c.bodyBytes)

/-- The indices that the constant refers to, in the order in which they are checked, with the
kind of constant that each must be.  The target of a method handle may be of any kind. -/
def references : Constant → List (UInt16 × ConstantKind)
  | .classRef a | .string a | .methodType a | .module a | .package a => [(a, .utf8)]
  | .nameAndType a b => [(a, .utf8), (b, .utf8)]
  | .fieldRef a b | .methodRef a b | .interfaceMethodRef a b =>
    [(a, .classRef), (b, .nameAndType)]
  | .dynamic _ b | .invokeDynamic _ b => [(b, .nameAndType)]
  | .utf8 _ | .integer _ | .float _ | .long _ | .double _ | .methodHandle _ _ => []

end Constant

end ClassGraft
