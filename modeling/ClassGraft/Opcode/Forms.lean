/-
Families of opcodes that differ in the kind of value.

Loads, stores and returns come in the five kinds of `ValueKind.all`, in that order.  A load or
a store of one of the first four locals also has a form of its own that needs no operand.

* `Opcode.load`, `Opcode.loadShort`, `Opcode.store`, `Opcode.storeShort`, `Opcode.returning`
  give the opcode of a kind;
* `Opcode.localForm?` and `Opcode.returned?` read the kind off an opcode.
-/
import ClassGraft.Descriptor.Kind
import ClassGraft.Opcode.Table

namespace ClassGraft

namespace ValueKind

/-- The place of the kind in the one-letter families. -/
def rank : ValueKind → Nat
  | .int => 0
  | .long => 1
  | .float => 2
  | .double => 3
  | .reference => 4

/-- The kind at a place. -/
def ofRank : Nat → ValueKind
  | 0 => .int
  | 1 => .long
  | 2 => .float
  | 3 => .double
  | _ => .reference

end ValueKind

/-- The access to a local variable that a load or store opcode stands for. -/
structure LocalForm where
  kind : ValueKind
  /-- Whether the local is written. -/
  stores : Bool
  /-- The local that the opcode itself names. -/
  index : Option UInt16
  deriving DecidableEq, Repr

namespace Opcode

/-- The load with a one-byte operand. -/
def load (k : ValueKind) : Opcode := iload + UInt8.ofNat k.rank

/-- The load of local 0; those of locals 1 to 3 follow it. -/
def loadShort (k : ValueKind) : Opcode := iload0 + UInt8.ofNat (4 * k.rank)

/-- The store with a one-byte operand. -/
def store (k : ValueKind) : Opcode := istore + UInt8.ofNat k.rank

/-- The store into local 0; those into locals 1 to 3 follow it. -/
def storeShort (k : ValueKind) : Opcode := istore0 + UInt8.ofNat (4 * k.rank)

/-- The return of a value, or of none. -/
def returning : Option ValueKind → Opcode
  | some k => ireturn + UInt8.ofNat k.rank
  | none => voidReturn

/-- How a load or store opcode accesses a local. -/
def localForm? (op : Opcode) : Option LocalForm :=
  let n := op.toNat
  if 0x15 ≤ n ∧ n ≤ 0x19 then some ⟨.ofRank (n - 0x15), false, none⟩
  else if 0x1A ≤ n ∧ n ≤ 0x2D then
    some ⟨.ofRank ((n - 0x1A) / 4), false, some (UInt16.ofNat ((n - 0x1A) % 4))⟩
  else if 0x36 ≤ n ∧ n ≤ 0x3A then some ⟨.ofRank (n - 0x36), true, none⟩
  else if 0x3B ≤ n ∧ n ≤ 0x4E then
    some ⟨.ofRank ((n - 0x3B) / 4), true, some (UInt16.ofNat ((n - 0x3B) % 4))⟩
  else none

/-- What a return opcode returns: nothing of interest for other opcodes, and `some none` for
the return without a value. -/
def returned? (op : Opcode) : Option (Option ValueKind) :=
  let n := op.toNat
  if 0xAC ≤ n ∧ n ≤ 0xB0 then some (some (.ofRank (n - 0xAC)))
  else if n = 0xB1 then some none
  else none

theorem localForm?_load (k : ValueKind) : localForm? (load k) = some ⟨k, false, none⟩ := by
  cases k <;> decide

theorem localForm?_store (k : ValueKind) : localForm? (store k) = some ⟨k, true, none⟩ := by
  cases k <;> decide

theorem returned?_returning (k : Option ValueKind) : returned? (returning k) = some k := by
  rcases k with _ | k
  · decide
  · cases k <;> decide

end Opcode

end ClassGraft
