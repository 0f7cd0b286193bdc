/-
Bytes as instructions.

`decode` reads a code array instruction by instruction.  An instruction gets a constructor of
its own only if writing that constructor gives the very bytes it was read from
(`settle`); all others keep their operand bytes.  Displacements are read as offsets first and
turned into positions when the whole layout is known (`resolveTargets`).
-/
import ClassGraft.Instruction.Encoding
import ClassGraft.Bytes.Reader

namespace ClassGraft

variable [Build]

/-- The instructions of a code array and where they lie in it. -/
structure Decoded where
  instructions : List Instruction
  layout : Layout
  deriving DecidableEq, Repr

namespace Decoded

/-- The offset that lies `delta` bytes after `offset`. -/
def absolute (offset : Nat) (delta : Int) : Except Fault Nat :=
  if 0 ≤ (offset : Int) + delta then .ok (offset + delta).toNat
  else .error (.malformed (.branchBeforeCode offset))

/-- Reads a four-byte displacement of the instruction at `offset`. -/
def readFar (offset : Nat) : Reader Nat := do
  Reader.ofExcept (absolute offset (← Reader.i32).toInt)

/-- How many operand bytes follow an opcode that `wide` modifies. -/
def wideOperands? (modified : Opcode) : Option Nat :=
  if modified = Opcode.iinc then some 4
  else if modified = Opcode.ret then some 2
  else
    match Opcode.localForm? modified with
    | some ⟨_, _, none⟩ => some 2
    | _ => none

/-- The access to a local that a kind and a direction stand for. -/
def localInstruction (form : LocalForm) (index : UInt16) : Instruction :=
  if form.stores then .storeLocal index form.kind else .loadLocal index form.kind

/-- The constructor of its own that an instruction without targets may have. -/
def lift? (pool : ConstantPool) (opcode : Opcode) (operands : Bytes) :
    Except Fault (Option Instruction) :=
  if opcode = Opcode.wide then
    match operands with
    | [modified, high, low] =>
      match Opcode.localForm? modified with
      | some ⟨kind, stores, none⟩ =>
        let index := UInt16.ofNat (BigEndian.decode [high, low])
        .ok (some (localInstruction ⟨kind, stores, none⟩ index))
      | _ => .ok none
    | _ => .ok none
  else if opcode = Opcode.pop then .ok (some .pop)
  else if opcode = Opcode.pop2 then .ok (some .pop2)
  else if Opcode.getstatic ≤ opcode ∧ opcode ≤ Opcode.invokeinterface then
    match operands with
    | high :: low :: _ => do
      let member ← pool.memberRef (UInt16.ofNat (BigEndian.decode [high, low]))
      return some <|
        if opcode = Opcode.getstatic then .loadField member true
        else if opcode = Opcode.getfield then .loadField member false
        else if opcode = Opcode.putstatic then .storeField member true
        else if opcode = Opcode.putfield then .storeField member false
        else if opcode = Opcode.invokevirtual then .invoke member .virtual
        else if opcode = Opcode.invokespecial then .invoke member .special
        else if opcode = Opcode.invokestatic then .invoke member .static
        else .invoke member .interface
    | _ => .ok none
  else
    match Opcode.returned? opcode, Opcode.localForm? opcode with
    | some kind, _ => .ok (some (.exit kind))
    | none, none => .ok none
    | none, some form =>
      match form.index, operands with
      | some index, _ => .ok (some (localInstruction form index))
      | none, index :: _ => .ok (some (localInstruction form index.toUInt16))
      | none, [] => .ok none

/-- The instruction of an opcode and its operand bytes: lifted if that form is written as the
same bytes again.  Writing it may stop the program. -/
def settle (pool : ConstantPool) (offset : Nat) (opcode : Opcode) (operands : Bytes) :
    Except Fault Instruction := do
  match ← lift? pool opcode operands with
  | none => return .other opcode operands
  | some lifted =>
    match lifted.encodeAt Layout.empty ⟨"", 0, offset⟩ with
    | .ok bytes => return if bytes = opcode :: operands then lifted else .other opcode operands
    | .error .overflow => throw .overflow
    | .error _ => return .other opcode operands

/-- The operands of a table switch at `offset`, behind its opcode. -/
def readTableSwitch (offset : Nat) : Reader Instruction := do
  Reader.align 4 (by decide)
  let default ← readFar offset
  let low ← Reader.i32
  let high ← Reader.i32
  if high < low then Reader.malformed (.invertedTableSwitch offset high.toInt low.toInt)
  else
    let count := (high.toInt - low.toInt + 1).toNat
    Reader.ensure (4 * count)
    return .tableSwitch default low (← Reader.times count (readFar offset))

/-- The operands of a lookup switch at `offset`, behind its opcode. -/
def readLookupSwitch (offset : Nat) : Reader Instruction := do
  Reader.align 4 (by decide)
  let default ← readFar offset
  let count ← Reader.i32
  if count < 0 then Reader.malformed (.negativePairCount offset count.toInt)
  else
    Reader.ensure (8 * count.toInt.toNat)
    let pairs ← Reader.times count.toInt.toNat do
      let key ← Reader.i32
      return (key, ← readFar offset)
    return .lookupSwitch default pairs

/-- The operand bytes of `wide` at `offset`, behind its opcode. -/
def readWide (offset : Nat) : Reader Bytes := do
  let modified ← Reader.u8
  match wideOperands? modified with
  | some count => return modified :: (← Reader.bytes count)
  | none => Reader.malformed (.badWideForm offset modified)

/-- One instruction; its targets are offsets. -/
def readInstruction (pool : ConstantPool) : Reader Instruction := do
  let offset ← Reader.pos
  let opcode ← Reader.u8
  match Opcode.info? opcode with
  | none => Reader.malformed (.invalidOpcode opcode offset)
  | some info =>
    match info.operands with
    | .none => Reader.ofExcept (settle pool offset opcode [])
    | .fixed count => do
      let operands ← Reader.bytes count
      Reader.ofExcept (settle pool offset opcode operands)
    | .branch16 => do
      let delta ← Reader.i16
      return .jump opcode (← Reader.ofExcept (absolute offset delta.toInt))
    | .branch32 => return .jump opcode (← readFar offset)
    | .tableSwitch => readTableSwitch offset
    | .lookupSwitch => readLookupSwitch offset
    | .wide => do
      let operands ← readWide offset
      Reader.ofExcept (settle pool offset opcode operands)

/-- An instruction that the end of the code cuts off is named by its offset. -/
def nameCut (offset : Nat) : Fault → Fault
  | .outOfBounds => .malformed (.cutInstruction offset)
  | fault => fault

/-- All instructions up to the end of the code with their offsets, at most `fuel` of them; those
in `done` stand in reverse.  Every instruction takes at least one byte, so as much fuel as there
are bytes never runs out early. -/
def readInstructions (pool : ConstantPool) :
    Nat → List (Nat × Instruction) → Reader (List (Nat × Instruction))
  | 0, done => pure done.reverse
  | fuel + 1, done => do
    if ← Reader.more then
      let offset ← Reader.pos
      let i ← Reader.mapFault (nameCut offset) (Reader.transaction (readInstruction pool))
      readInstructions pool fuel ((offset, i) :: done)
    else pure done.reverse

/-- The position of the instruction at an offset that instruction `index` at `offset` branches
to. -/
def resolveTarget (layout : Layout) (index offset target : Nat) : Except Fault Nat :=
  match layout.indexOf? target with
  | some position =>
    if position < layout.count then .ok position
    else .error (.malformed (.branchOffInstruction index offset target))
  | none => .error (.malformed (.branchOffInstruction index offset target))

/-- Turns the offsets in targets into positions. -/
def resolveTargets (layout : Layout) (list : List (Nat × Instruction)) :
    Except Fault (List Instruction) :=
  list.zipIdx.mapM fun ((offset, i), index) => i.mapTargetsM (resolveTarget layout index offset)

end Decoded

/-- The instructions of a code array. -/
def decode (pool : ConstantPool) (code : Bytes) : Except Fault Decoded := do
  let list ← (Decoded.readInstructions pool code.length []).eval code
  let layout : Layout := ⟨(list.map Prod.fst ++ [code.length]).toArray⟩
  return ⟨← Decoded.resolveTargets layout list, layout⟩

end ClassGraft
