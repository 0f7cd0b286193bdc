/-
Listings of classes.

A listing shows the methods of a class with their instructions, each under its position and its
offset.  A `Listing` is made line by line and may end early: a fault takes the place of the
first line that cannot be made, and what stands before it is still shown.
-/
import ClassGraft.ClassFile.Basic
import ClassGraft.Cli.Table
import ClassGraft.Instruction.Encoding

namespace ClassGraft.Cli

variable [Build]

/-- Lines up to the end, or up to a fault. -/
abbrev Listing := List (Except Fault String)

namespace Listing

/-- The lines in front of the first fault. -/
def shown : Listing → List String
  | .ok line :: rest => line :: shown rest
  | _ => []

/-- The first fault. -/
def fault? : Listing → Option Fault
  | [] => none
  | .ok _ :: rest => fault? rest
  | .error fault :: _ => some fault

/-- The flags of a method, in lower case. -/
def flags (access : Access) : String :=
  " ".intercalate ((Access.names Access.ofMethod access).map String.toLower)

/-- Two capital digits for every byte, with blanks between them. -/
def hex (bytes : Bytes) : String := " ".intercalate (bytes.map fun b => Hex.upper 2 b.toNat)

def fill (alignment : Alignment) (width : Nat) (text : String) : String :=
  String.ofList (alignment.fill width text.toList)

/-- The line of an instruction: its position, its offset, its bytes if they are wanted, and the
instruction itself. -/
def instructionLine (showBytes : Bool) (index offset : Nat) (bytes : Bytes) (i : Instruction) :
    String :=
  let place := s!"    #{fill .left 4 (toString index)} {fill .right 5 (toString offset)}: "
  let raw := if showBytes then fill .left 16 (hex bytes) ++ " " else ""
  place ++ raw ++ i.text

/-- The lines of instructions from a position on, whose code starts at an offset. -/
def instructionLines (showBytes : Bool) : Nat → Nat → Bytes → Instructions → List String
  | _, _, _, [] => []
  | index, offset, bytes, i :: rest =>
    let size := i.size offset
    instructionLine showBytes index offset (bytes.take size) i ::
      instructionLines showBytes (index + 1) (offset + size) (bytes.drop size) rest

/-- The line of an exception handler. -/
def handlerLine (pool : ConstantPool) (handler : Handler) : Except Fault String := do
  let caught ← if handler.catchType = 0 then pure "any" else pool.className handler.catchType
  return s!"    catch {caught} [#{handler.start}, #{handler.stop}) -> #{handler.entry}"

/-- The lines of a method body. -/
def ofCode (pool : ConstantPool) (showBytes : Bool) (method : String) (code : Code) : Listing :=
  match encode method code.instructions with
  | .error fault => [.error fault]
  | .ok encoded =>
    let length := encoded.bytes.length
    .ok s!"    // max_stack {code.maxStack}, max_locals {code.maxLocals}, {length} bytes" ::
      (instructionLines showBytes 0 0 encoded.bytes code.instructions).map .ok ++
      code.handlers.map (handlerLine pool)

/-- The lines of a method. -/
def ofMethod (pool : ConstantPool) (showBytes : Bool) (m : Method) : Listing :=
  .ok "" :: .ok s!"  {flags m.access} {m.name}{m.descriptor}" ::
    match m.code? with
    | some code => ofCode pool showBytes m.name code
    | none => [.ok "    // no code"]

/-- Whether a text stands somewhere in another one. -/
def occurs (text : List Char) : List Char → Bool
  | [] => text.isEmpty
  | c :: rest => text.isPrefixOf (c :: rest) || occurs text rest

/-- The methods of a class whose names contain a text; all methods where none is given. -/
def selected (c : ClassFile) (filter : Option String) : List Method :=
  c.methods.filter fun m => filter.all fun text => occurs text.toList m.name.toList

/-- The listing of some methods of a class. -/
def ofClass (c : ClassFile) (methods : List Method) (showBytes : Bool) : Listing :=
  (c.name.map fun name => s!"class {name}") :: methods.flatMap (ofMethod c.pool showBytes)

end Listing

end ClassGraft.Cli
