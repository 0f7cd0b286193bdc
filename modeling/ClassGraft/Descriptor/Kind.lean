/-
The five kinds of value that a local variable or the operand stack holds.

The virtual machine computes with `int` for all of `boolean`, `byte`, `char`, `short` and
`int`; `long` and `double` take two slots, everything else takes one (`ValueKind.width`).
-/

namespace ClassGraft

/-- What a local variable slot, an operand or a return value can be. -/
inductive ValueKind where
  | int
  | long
  | float
  | double
  | reference
  deriving DecidableEq, Repr, Inhabited

namespace ValueKind

/-- A `long` and a `double` take two slots, every other value one. -/
def width : ValueKind → Nat
  | .long | .double => 2
  | .int | .float | .reference => 1

/-- The lower-case name of the kind. -/
def label : ValueKind → String
  | .int => "int"
  | .long => "long"
  | .float => "float"
  | .double => "double"
  | .reference => "reference"

/-- All kinds, in the order in which the one-letter instruction families come. -/
def all : List ValueKind := [.int, .long, .float, .double, .reference]

end ValueKind

end ClassGraft
