/-
The depth of the operand stack at every instruction.

The survey starts at the first instruction with an empty stack and at every handler entry with
the thrown object on it.  It follows control from instruction to instruction
(`Instruction.edges`) and settles the depth on entry when it first reaches an instruction;
reaching it again with another depth is a fault.  Control never comes back from `ret`: the
instruction behind a subroutine call is entered with the depth that the call itself was
entered with.

* `StackDepth.survey` — depths on entry and the deepest stack;
* `StackDepth.after` — the depth behind one instruction.
-/
import ClassGraft.Code.Basic
import ClassGraft.Code.Worklist
import ClassGraft.Instruction.Effect

namespace ClassGraft

variable [Build]

/-- What a survey of a body finds out. -/
structure StackDepths where
  /-- The deepest stack, in slots. -/
  maxStack : Nat
  /-- The depth on entry to every instruction, none where control never arrives. -/
  depths : Array (Option Nat)
  deriving DecidableEq, Repr

/-- The most slots that an operand stack may have. -/
def maxStackSlots : Nat := 65535

/-- Where control goes on from the instruction at `index`, and how deep the stack is there, if
it is `before` deep on entry and `after` deep behind the instruction. -/
def Instruction.edges (i : Instruction) (index before after : Nat) : List (Nat × Nat) :=
  match i.flow with
  | .sequential => [(index + 1, after)]
  | .conditional => (index + 1, after) :: i.targets.map (·, after)
  | .jump | .switch => i.targets.map (·, after)
  | .subroutine => i.targets.map (·, after) ++ [(index + 1, before)]
  | .subroutineReturn | .exit | .throw => []

namespace StackDepth

/-- The depth behind an instruction that is entered with `depth` slots. -/
def after (pool : ConstantPool) (method : String) (index : Nat) (i : Instruction) (depth : Nat) :
    Except Fault Nat := do
  let effect ← i.stackEffect pool
  if effect.pops ≤ depth then
    let deep := depth - effect.pops + effect.pushes
    if deep ≤ maxStackSlots then return deep
    else throw (.inconsistent method index .stackTooDeep)
  else throw (.stackUnderflow method index)

/-- The state of a survey. -/
structure Progress where
  depths : Array (Option Nat)
  /-- Instructions whose depth is settled but whose successors are not. -/
  pending : Worklist Nat
  maxStack : Nat

namespace Progress

/-- Arrives at `target` from `source` with a depth. -/
def enter (method : String) (source : Nat) (p : Progress) (target depth : Nat) :
    Except Fault Progress :=
  match p.depths[target]? with
  | none => .error (.inconsistent method source .runsOffTheEnd)
  | some none =>
    .ok { p with
      depths := p.depths.setIfInBounds target (some depth), pending := p.pending.push target }
  | some (some existing) =>
    if existing = depth then .ok p
    else .error (.inconsistent method target (.depthMismatch depth source existing))

/-- Arrives at each of `edges` in turn. -/
def enterAll (method : String) (source : Nat) (p : Progress) (edges : List (Nat × Nat)) :
    Except Fault Progress :=
  edges.foldlM (fun p (target, depth) => p.enter method source target depth) p

/-- Follows control on from the instruction at `index`. -/
def visit (pool : ConstantPool) (method : String) (list : Array Instruction) (p : Progress)
    (index : Nat) : Except Fault Progress :=
  match list[index]?, p.depths[index]? with
  | some i, some (some depth) => do
    let deep ← after pool method index i depth
    let p := { p with maxStack := max p.maxStack deep }
    p.enterAll method index (i.edges index depth deep)
  | _, _ => .ok p

end Progress

/-- Visits at most `fuel` pending instructions.  An instruction is pending only once, so as much
fuel as there are instructions leaves none. -/
def explore (pool : ConstantPool) (method : String) (list : Array Instruction) :
    Nat → Progress → Except Fault Progress
  | 0, p => .ok p
  | fuel + 1, p =>
    match p.pending.pop? with
    | none => .ok p
    | some (index, pending) => do
      explore pool method list fuel (← { p with pending }.visit pool method list index)

/-- The survey before control has gone anywhere. -/
def unvisited (count : Nat) : Progress := ⟨Array.replicate count none, .empty, 0⟩

/-- Enters the body at its start and at every handler. -/
def enterRoots (method : String) (handlers : List Handler) (p : Progress) :
    Except Fault Progress := do
  let p ← p.enter method 0 0 0
  handlers.foldlM
    (fun p handler => do
      let p ← p.enter method handler.start handler.entry 1
      return { p with maxStack := max p.maxStack 1 })
    p

/-- The depths in a body; faults name `method`. -/
def survey (code : Code) (pool : ConstantPool) (method : String) : Except Fault StackDepths := do
  let list := code.instructions.toArray
  if list.isEmpty then return ⟨0, #[]⟩
  else
    let p ← enterRoots method code.handlers (unvisited list.size)
    let p ← explore pool method list list.size p
    return ⟨p.maxStack, p.depths⟩

end StackDepth

end ClassGraft
