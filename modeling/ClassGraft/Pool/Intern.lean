/-
Finding constants by their contents, and adding those that are missing.

A step of a `PoolEdit` answers with an index.  Constants are only ever appended, so an index
stays valid for good; a step that fails because the pool is full keeps the constants which its
earlier parts have added.
-/
import ClassGraft.Pool.Basic

namespace ClassGraft

/-- A computation that may append constants to a pool. -/
abbrev PoolEdit := EStateM Fault ConstantPool

namespace ConstantPool

/-- The first index of an equal constant. -/
def indexOf? (pool : ConstantPool) (c : Constant) : Option UInt16 :=
  (pool.slots.findIdx? (· == some c)).map UInt16.ofNat

/-- How many slots a constant takes. -/
def slotsFor (c : Constant) : Nat := if c.wide then 2 else 1

/-- The pool with one more constant. -/
def append (pool : ConstantPool) (c : Constant) : ConstantPool :=
  if c.wide then ⟨(pool.slots.push (some c)).push none⟩ else ⟨pool.slots.push (some c)⟩

/-- Appends a constant even where an equal one exists. -/
def push (c : Constant) : PoolEdit UInt16 := fun pool =>
  if pool.count + slotsFor c ≤ maxSlots then .ok (UInt16.ofNat pool.count) (pool.append c)
  else .error .poolFull pool

/-- The index of a constant, which is appended where it is missing. -/
def intern (c : Constant) : PoolEdit UInt16 := do
  match (← get).indexOf? c with
  | some index => return index
  | none => push c

/-- The index of a text. -/
def utf8Index (text : String) : PoolEdit UInt16 := intern (.utf8 (ModifiedUtf8.encode text))

/-- The index of a class by its internal name. -/
def classIndex (name : String) : PoolEdit UInt16 := do
  intern (.classRef (← utf8Index name))

/-- The index of a name with a descriptor. -/
def nameAndTypeIndex (name descriptor : String) : PoolEdit UInt16 := do
  let name ← utf8Index name
  let descriptor ← utf8Index descriptor
  intern (.nameAndType name descriptor)

/-- The index of a field. -/
def fieldIndex (owner name descriptor : String) : PoolEdit UInt16 := do
  let owner ← classIndex owner
  let nat ← nameAndTypeIndex name descriptor
  intern (.fieldRef owner nat)

/-- The index of a method of a class. -/
def methodIndex (owner name descriptor : String) : PoolEdit UInt16 := do
  let owner ← classIndex owner
  let nat ← nameAndTypeIndex name descriptor
  intern (.methodRef owner nat)

end ConstantPool

end ClassGraft
