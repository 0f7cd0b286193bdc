/-
Class files.

A `ClassFile` holds everything that the bytes of a class file hold.  Names and descriptors of
members are kept beside their pool indices, as they were when the file was read; attributes
other than method bodies stay bytes.
-/
import ClassGraft.ClassFile.Access
import ClassGraft.Code.Basic
import ClassGraft.Pool.Basic
import ClassGraft.Descriptor.Basic

namespace ClassGraft

/-- A field of a class. -/
structure Field where
  access : Access
  nameIndex : UInt16
  descriptorIndex : UInt16
  name : String
  descriptor : String
  attributes : List RawAttribute
  deriving DecidableEq, Repr

/-- An attribute of a method. -/
inductive MethodAttribute where
  | code (nameIndex : UInt16) (code : Code)
  | other (raw : RawAttribute)
  deriving DecidableEq, Repr

/-- A method of a class. -/
structure Method where
  access : Access
  nameIndex : UInt16
  descriptorIndex : UInt16
  name : String
  descriptor : String
  attributes : List MethodAttribute
  deriving DecidableEq, Repr

/-- A class. -/
structure ClassFile where
  minor : UInt16
  major : UInt16
  pool : ConstantPool
  access : Access
  thisClass : UInt16
  /-- The pool index of the class above, 0 for none. -/
  superClass : UInt16
  interfaces : List UInt16
  fields : List Field
  methods : List Method
  attributes : List RawAttribute
  deriving DecidableEq, Repr

/-- The method body that the attribute holds. -/
def MethodAttribute.code? : MethodAttribute → Option Code
  | .code _ body => some body
  | .other _ => none

/-- Replaces the first method body among attributes. -/
def MethodAttribute.replaceCode (body : Code) : List MethodAttribute → List MethodAttribute
  | [] => []
  | .code nameIndex _ :: rest => .code nameIndex body :: rest
  | .other raw :: rest => .other raw :: replaceCode body rest

namespace Method

/-- The first body of the method; an abstract or native method has none. -/
def code? (method : Method) : Option Code := method.attributes.findSome? MethodAttribute.code?

/-- The method with another first body. -/
def withCode (method : Method) (code : Code) : Method :=
  { method with attributes := MethodAttribute.replaceCode code method.attributes }

def isStatic (method : Method) : Bool := method.access.isStatic

/-- How many local slots the receiver and the parameters take. -/
def parameterSlots [Build] (method : Method) : Except Fault Nat := do
  (← MethodDescriptor.parse method.descriptor).callSlots !method.isStatic

end Method

namespace ClassFile

/-- The internal name of the class. -/
def name (c : ClassFile) : Except Fault String := c.pool.className c.thisClass

/-- The first field of a name. -/
def field? (c : ClassFile) (name : String) : Option Field :=
  c.fields.find? fun field => field.name == name

/-- The place of the first method of a name and, if one is given, of a descriptor. -/
def methodPosition? (c : ClassFile) (name : String) (descriptor : Option String) : Option Nat :=
  c.methods.findIdx? fun method =>
    method.name == name && descriptor.all (method.descriptor == ·)

/-- The class with another body of the method at a place. -/
def withCode (c : ClassFile) (place : Nat) (code : Code) : ClassFile :=
  { c with methods := c.methods.modify place fun method => method.withCode code }

end ClassFile

end ClassGraft
