/-
Writing values as bytes.

Every writer yields the bytes of one value, so that the bytes of a compound are the bytes of
its parts in order.  A writer that can fail, because the format has no room for the value,
yields an `Except`.
-/
import ClassGraft.Bytes.BigEndian
import ClassGraft.Fault

namespace ClassGraft

namespace Bytes

def ofU16 (v : UInt16) : Bytes := BigEndian.encode 2 v.toNat

def ofU32 (v : UInt32) : Bytes := BigEndian.encode 4 v.toNat

def ofU64 (v : UInt64) : Bytes := BigEndian.encode 8 v.toNat

def ofI16 (v : Int16) : Bytes := ofU16 v.toUInt16

def ofI32 (v : Int32) : Bytes := ofU32 v.toUInt32

/-- A two-byte count of `items`, then the bytes of each. -/
def ofTable {α : Type} (item : α → Bytes) (items : List α) : Bytes :=
  BigEndian.encode 2 items.length ++ items.flatMap item

/-- The bytes of each item in order; the first item without bytes decides the fault. -/
def concatMapM {α : Type} (item : α → Except Fault Bytes) (items : List α) :
    Except Fault Bytes := do
  return (← items.mapM item).flatten

/-- A two-byte count of `items`, then the bytes of each, none of which may fail. -/
def ofTableM {α : Type} (item : α → Except Fault Bytes) (items : List α) :
    Except Fault Bytes := do
  return BigEndian.encode 2 items.length ++ (← concatMapM item items)

end Bytes

end ClassGraft
