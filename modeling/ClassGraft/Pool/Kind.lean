/-
The kinds of constants and the roles a pool index can play.

A constant's kind is one byte in the file (`ConstantKind.tag`); `ConstantKind.ofTag?` is its
inverse, and a tag without a kind is refused when a pool is read.  `PoolRole` names what an
instruction or table expects to find behind an index.
-/

namespace ClassGraft

/-- The seventeen kinds of constants. -/
inductive ConstantKind where
  | utf8
  | integer
  | float
  | long
  | double
  | classRef
  | string
  | fieldRef
  | methodRef
  | interfaceMethodRef
  | nameAndType
  | methodHandle
  | methodType
  | dynamic
  | invokeDynamic
  | module
  | package
  deriving DecidableEq, Repr, Inhabited

namespace ConstantKind

/-- The byte that opens a constant of this kind. -/
def tag : ConstantKind → UInt8
  | .utf8 => 1
  | .integer => 3
  | .float => 4
  | .long => 5
  | .double => 6
  | .classRef => 7
  | .string => 8
  | .fieldRef => 9
  | .methodRef => 10
  | .interfaceMethodRef => 11
  | .nameAndType => 12
  | .methodHandle => 15
  | .methodType => 16
  | .dynamic => 17
  | .invokeDynamic => 18
  | .module => 19
  | .package => 20

/-- Every kind, in the order of the tags. -/
def all : List ConstantKind :=
  [.utf8, .integer, .float, .long, .double, .classRef, .string, .fieldRef, .methodRef,
    .interfaceMethodRef, .nameAndType, .methodHandle, .methodType, .dynamic, .invokeDynamic,
    .module, .package]

/-- The kind that a tag announces. -/
def ofTag? (t : UInt8) : Option ConstantKind := all.find? fun k => k.tag == t

theorem ofTag?_tag (k : ConstantKind) : ofTag? k.tag = some k := by cases k <;> decide

/-- The name of the kind in messages and listings. -/
def label : ConstantKind → String
  | .utf8 => "Utf8"
  | .integer => "Integer"
  | .float => "Float"
  | .long => "Long"
  | .double => "Double"
  | .classRef => "Class"
  | .string => "String"
  | .fieldRef => "FieldRef"
  | .methodRef => "MethodRef"
  | .interfaceMethodRef => "InterfaceMethodRef"
  | .nameAndType => "NameAndType"
  | .methodHandle => "MethodHandle"
  | .methodType => "MethodType"
  | .dynamic => "Dynamic"
  | .invokeDynamic => "InvokeDynamic"
  | .module => "Module"
  | .package => "Package"

/-- A `Long` and a `Double` take two slots of the pool. -/
def wide : ConstantKind → Bool
  | .long | .double => true
  | _ => false

end ConstantKind

/-- What a user of a pool index expects behind it. -/
inductive PoolRole where
  | utf8
  | classRef
  | nameAndType
  | member
  | callSite
  deriving DecidableEq, Repr

/-- The role as messages name it. -/
def PoolRole.label : PoolRole → String
  | .utf8 => "Utf8"
  | .classRef => "Class"
  | .nameAndType => "NameAndType"
  | .member => "member reference"
  | .callSite => "InvokeDynamic"

end ClassGraft
