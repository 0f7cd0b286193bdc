/-
The constant pool: constants behind the indices that the rest of a class file uses.

Slot 0 is never used and a wide constant is followed by an unused slot, so the slots of a pool
are an array of optional constants.  `ConstantPool.lookup` is the one way to a constant; the
lookups below it decode what they find and refuse a constant of the wrong kind.

* `ConstantPool.read`, `ConstantPool.write` — the pool as bytes;
* `ConstantPool.validate` — every constant refers to constants of the right kinds.
-/
import ClassGraft.Pool.Constant
import ClassGraft.Text.ModifiedUtf8

namespace ClassGraft

/-- A field or method as an instruction refers to it: the index of the reference and what it
resolves to. -/
structure MemberRef where
  index : UInt16
  owner : String
  name : String
  descriptor : String
  deriving DecidableEq, Repr, Inhabited

/-- The member as listings print it. -/
def MemberRef.text (m : MemberRef) : String := s!"{m.owner}.{m.name} {m.descriptor}"

/-- Constants by index. -/
structure ConstantPool where
  slots : Array (Option Constant)
  deriving DecidableEq, Repr

namespace ConstantPool

/-- The pool without constants. -/
def empty : ConstantPool := ⟨#[none]⟩

/-- The most slots that a pool may have. -/
def maxSlots : Nat := 65535

/-- The number of slots, the unused ones included. -/
def count (pool : ConstantPool) : Nat := pool.slots.size

/-- The constant behind an index, if there is one. -/
def lookup? (pool : ConstantPool) (index : UInt16) : Option Constant :=
  (pool.slots[index.toNat]?).join

/-- The constant behind an index. -/
def lookup (pool : ConstantPool) (index : UInt16) : Except Fault Constant :=
  match pool.lookup? index with
  | some c => .ok c
  | none => .error (.malformed (.badIndex index))

/-- The constants with their indices, in order. -/
def toList (pool : ConstantPool) : List (Nat × Constant) :=
  pool.slots.toList.zipIdx.filterMap fun (slot, index) => slot.map (index, ·)

/-- The fault of finding `found` where a constant of another role was wanted. -/
def unexpected {α : Type} (index : UInt16) (found : Constant) (wanted : PoolRole) :
    Except Fault α :=
  .error (.malformed (.unexpectedConstant index found.kind wanted))

/-- The text behind an index. -/
def utf8 (pool : ConstantPool) (index : UInt16) : Except Fault String := do
  match ← pool.lookup index with
  | .utf8 bytes => ModifiedUtf8.decode bytes
  | other => unexpected index other .utf8

/-- The internal name of the class behind an index. -/
def className (pool : ConstantPool) (index : UInt16) : Except Fault String := do
  match ← pool.lookup index with
  | .classRef name => pool.utf8 name
  | other => unexpected index other .classRef

/-- The name and the descriptor behind an index. -/
def nameAndType (pool : ConstantPool) (index : UInt16) : Except Fault (String × String) := do
  match ← pool.lookup index with
  | .nameAndType name descriptor => return (← pool.utf8 name, ← pool.utf8 descriptor)
  | other => unexpected index other .nameAndType

/-- The field or method behind an index. -/
def memberRef (pool : ConstantPool) (index : UInt16) : Except Fault MemberRef := do
  match ← pool.lookup index with
  | .fieldRef owner nat | .methodRef owner nat | .interfaceMethodRef owner nat =>
    let (name, descriptor) ← pool.nameAndType nat
    let owner ← pool.className owner
    return { index, owner, name, descriptor }
  | other => unexpected index other .member

/-- The descriptor of the dynamic call site behind an index. -/
def callSite (pool : ConstantPool) (index : UInt16) : Except Fault String := do
  match ← pool.lookup index with
  | .invokeDynamic _ nat => return (← pool.nameAndType nat).2
  | other => unexpected index other .callSite

/-! ### The pool as bytes -/

/-- Checks one reference of the constant at `source`. -/
def checkReference (pool : ConstantPool) (source : Nat) (index : UInt16)
    (wanted : ConstantKind) : Except Fault Unit :=
  match pool.lookup? index with
  | none => .error (.malformed (.danglingConstant source index))
  | some found =>
    if found.kind = wanted then .ok ()
    else .error (.malformed (.mistypedConstant source index found.kind wanted))

/-- Checks the constant at `index`.  A method handle is of one of nine kinds and its target
exists. -/
def checkConstant (pool : ConstantPool) (index : Nat) (c : Constant) : Except Fault Unit :=
  match c with
  | .methodHandle kind target =>
    if kind < 1 ∨ 9 < kind then .error (.malformed (.badReferenceKind index kind))
    else (pool.lookup target).map fun _ => ()
  | _ => c.references.forM fun (target, wanted) => pool.checkReference index target wanted

/-- Checks every constant, the first failing one decides the fault. -/
def validate (pool : ConstantPool) : Except Fault Unit :=
  pool.toList.forM fun (index, c) => pool.checkConstant index c

/-- Reads constants until `n` further slots are filled. -/
def readSlots : Nat → Array (Option Constant) → Reader (Array (Option Constant))
  | 0, slots => pure slots
  | 1, slots => do
    let c ← Constant.read
    if c.wide then Reader.malformed (.wideInLastSlot slots.size)
    else return slots.push (some c)
  | n + 2, slots => do
    let c ← Constant.read
    if c.wide then readSlots n ((slots.push (some c)).push none)
    else readSlots (n + 1) (slots.push (some c))

/-- A two-byte slot count and the constants of a pool, which must refer to each other
properly. -/
def read : Reader ConstantPool := do
  let count ← Reader.u16
  if count = 0 then Reader.malformed .poolCountZero
  else
    let pool : ConstantPool := ⟨← readSlots (count.toNat - 1) #[none]⟩
    Reader.ofExcept pool.validate
    return pool

/-- The slot count and the constants. -/
def write (pool : ConstantPool) : Except Fault Bytes := do
  let constants := pool.slots.toList.filterMap id
  return BigEndian.encode 2 pool.count ++ (← Bytes.concatMapM Constant.write constants)

end ConstantPool

end ClassGraft
