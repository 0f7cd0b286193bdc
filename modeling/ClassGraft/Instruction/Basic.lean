/-
Instructions.

What the library reasons about has a constructor of its own; every other instruction keeps its
operand bytes (`Instruction.other`).  Targets of branches and switches are positions in the
list of instructions, never offsets, so that inserting and removing instructions is a matter of
renumbering (`Instruction.mapTargets`).

* `Instruction.opcode`, `Instruction.flow`, `Instruction.targets` — how control goes on;
* `Instruction.localAccess` — which local variables are touched;
* `Instruction.text` — the instruction in a listing.
-/
import ClassGraft.Opcode.Forms
import ClassGraft.Pool.Basic

namespace ClassGraft

/-- Positions and offsets stay below this number: they are counted in 64 bits. -/
def countLimit : Nat := 0x10000000000000000

/-- How the method of a call is chosen. -/
inductive Dispatch where
  | virtual
  | special
  | static
  | interface
  deriving DecidableEq, Repr

namespace Dispatch

def opcode : Dispatch → Opcode
  | .virtual => Opcode.invokevirtual
  | .special => Opcode.invokespecial
  | .static => Opcode.invokestatic
  | .interface => Opcode.invokeinterface

def label : Dispatch → String
  | .virtual => "virtual"
  | .special => "special"
  | .static => "static"
  | .interface => "interface"

end Dispatch

/-- One instruction of a method body. -/
inductive Instruction where
  | loadLocal (index : UInt16) (kind : ValueKind)
  | storeLocal (index : UInt16) (kind : ValueKind)
  | loadField (field : MemberRef) (isStatic : Bool)
  | storeField (field : MemberRef) (isStatic : Bool)
  | invoke (method : MemberRef) (dispatch : Dispatch)
  | pop
  | pop2
  | exit (kind : Option ValueKind)
  | jump (opcode : Opcode) (target : Nat)
  | tableSwitch (default : Nat) (low : Int32) (targets : List Nat)
  | lookupSwitch (default : Nat) (pairs : List (Int32 × Nat))
  | other (opcode : Opcode) (operands : Bytes)
  deriving DecidableEq, Repr

namespace Instruction

/-- The opcode of the shortest form that is not widened. -/
def opcode : Instruction → Opcode
  | .loadLocal index kind =>
    if index ≤ 3 then Opcode.loadShort kind + index.toUInt8 else Opcode.load kind
  | .storeLocal index kind =>
    if index ≤ 3 then Opcode.storeShort kind + index.toUInt8 else Opcode.store kind
  | .loadField _ isStatic => if isStatic then Opcode.getstatic else Opcode.getfield
  | .storeField _ isStatic => if isStatic then Opcode.putstatic else Opcode.putfield
  | .invoke _ dispatch => dispatch.opcode
  | .pop => Opcode.pop
  | .pop2 => Opcode.pop2
  | .exit kind => Opcode.returning kind
  | .jump opcode _ => opcode
  | .tableSwitch .. => Opcode.tableswitch
  | .lookupSwitch .. => Opcode.lookupswitch
  | .other opcode _ => opcode

def mnemonic (i : Instruction) : String :=
  ((Opcode.info? i.opcode).map OpcodeInfo.mnemonic).getD "<invalid>"

/-- The opcode that decides where control goes on: a widened instruction goes on as the
instruction does that it widens. -/
def flowOpcode (i : Instruction) : Opcode :=
  match i with
  | .other opcode operands =>
    if opcode = Opcode.wide then operands.head?.getD Opcode.wide else opcode
  | _ => i.opcode

/-- Where control goes on. -/
def flow (i : Instruction) : Flow :=
  ((Opcode.info? i.flowOpcode).map OpcodeInfo.flow).getD .sequential

def isNop : Instruction → Bool
  | .other opcode _ => opcode == Opcode.nop
  | _ => false

/-- The positions that a branch or switch may go to, the default of a switch first. -/
def targets : Instruction → List Nat
  | .jump _ target => [target]
  | .tableSwitch default _ targets => default :: targets
  | .lookupSwitch default pairs => default :: pairs.map Prod.snd
  | _ => []

/-- The instruction with every target renumbered. -/
def mapTargets (f : Nat → Nat) : Instruction → Instruction
  | .jump opcode target => .jump opcode (f target)
  | .tableSwitch default low targets => .tableSwitch (f default) low (targets.map f)
  | .lookupSwitch default pairs =>
    .lookupSwitch (f default) (pairs.map fun (key, target) => (key, f target))
  | i => i

/-- The instruction with every target renumbered, as far as each has a new number; the default
of a switch is looked up first. -/
def mapTargetsM {ε : Type} (f : Nat → Except ε Nat) : Instruction → Except ε Instruction
  | .jump opcode target => do return .jump opcode (← f target)
  | .tableSwitch default low targets => do
    let default ← f default
    return .tableSwitch default low (← targets.mapM f)
  | .lookupSwitch default pairs => do
    let default ← f default
    return .lookupSwitch default (← pairs.mapM fun (key, target) => do return (key, ← f target))
  | i => .ok i

/-- The local that an instruction touches and how many slots it takes there. -/
def localAccess : Instruction → Option (UInt16 × Nat)
  | .loadLocal index kind | .storeLocal index kind => some (index, kind.width)
  | .other opcode operands =>
    if opcode = Opcode.iinc ∨ opcode = Opcode.ret then
      operands.head?.map fun index => (index.toUInt16, 1)
    else if opcode = Opcode.wide then
      match operands with
      | modified :: high :: low :: _ =>
        let index := UInt16.ofNat (BigEndian.decode [high, low])
        if modified = Opcode.iinc ∨ modified = Opcode.ret then some (index, 1)
        else (Opcode.localForm? modified).map fun form => (index, form.kind.width)
      | _ => none
    else
      match Opcode.localForm? opcode with
      | none => none
      | some ⟨kind, _, some index⟩ => some (index, kind.width)
      | some ⟨kind, _, none⟩ => operands.head?.map fun index => (index.toUInt16, kind.width)
  | _ => none

/-! ### Listings -/

/-- The text of a position. -/
def positionText (position : Nat) : String := s!"#{position}"

/-- The instruction in a listing. -/
def text (i : Instruction) : String :=
  match i with
  | .loadLocal index _ | .storeLocal index _ =>
    if index ≤ 3 then i.mnemonic else s!"{i.mnemonic} {index.toNat}"
  | .loadField field _ | .storeField field _ =>
    s!"{i.mnemonic} {field.owner}.{field.name} : {field.descriptor}"
  | .invoke method _ => s!"{i.mnemonic} {method.text}"
  | .jump _ target => s!"{i.mnemonic} -> {positionText target}"
  | .tableSwitch default low targets =>
    let cases := String.join (targets.map fun target => " " ++ positionText target)
    s!"{i.mnemonic} {low.toInt}..{cases} default {positionText default}"
  | .lookupSwitch default pairs =>
    let cases := String.join
      (pairs.map fun (key, target) => s!" {key.toInt}: {positionText target}")
    s!"{i.mnemonic}{cases} default {positionText default}"
  | .other opcode operands =>
    if (Opcode.info? opcode).map OpcodeInfo.operands = some .none then i.mnemonic
    else i.mnemonic ++ String.join (operands.map fun b => " " ++ Hex.upper 2 b.toNat)
  | .pop | .pop2 | .exit _ => i.mnemonic

end Instruction

end ClassGraft
