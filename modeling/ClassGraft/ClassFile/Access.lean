/-
Access flags.

Flags are the bits of a two-byte word.  Which bits have a name, and which, differs between
classes, fields and methods; bits without a name are kept all the same.
-/

namespace ClassGraft

/-- A two-byte word of flags. -/
abbrev Access := UInt16

namespace Access

/-- The names of the bits of a class. -/
def ofClass : List (String × UInt16) :=
  [("PUBLIC", 0x0001), ("FINAL", 0x0010), ("SUPER", 0x0020), ("INTERFACE", 0x0200),
    ("ABSTRACT", 0x0400), ("SYNTHETIC", 0x1000), ("ANNOTATION", 0x2000), ("ENUM", 0x4000),
    ("MODULE", 0x8000)]

/-- The names of the bits of a field. -/
def ofField : List (String × UInt16) :=
  [("PUBLIC", 0x0001), ("PRIVATE", 0x0002), ("PROTECTED", 0x0004), ("STATIC", 0x0008),
    ("FINAL", 0x0010), ("VOLATILE", 0x0040), ("TRANSIENT", 0x0080), ("SYNTHETIC", 0x1000),
    ("ENUM", 0x4000)]

/-- The names of the bits of a method. -/
def ofMethod : List (String × UInt16) :=
  [("PUBLIC", 0x0001), ("PRIVATE", 0x0002), ("PROTECTED", 0x0004), ("STATIC", 0x0008),
    ("FINAL", 0x0010), ("SYNCHRONIZED", 0x0020), ("BRIDGE", 0x0040), ("VARARGS", 0x0080),
    ("NATIVE", 0x0100), ("ABSTRACT", 0x0400), ("STRICT", 0x0800), ("SYNTHETIC", 0x1000)]

/-- Whether a bit is set. -/
def has (access : Access) (bit : UInt16) : Bool := access &&& bit != 0

/-- The names of the bits that are set, in the order of the table. -/
def names (table : List (String × UInt16)) (access : Access) : List String :=
  (table.filter fun (_, bit) => access.has bit).map Prod.fst

/-- Whether a method has no receiver. -/
def isStatic (access : Access) : Bool := access.has 0x0008

end Access

end ClassGraft
