/-
Inputs: the contents of one file, from memory or from disk.

An `Input` is never empty; `Input.ofBytes` refuses empty contents whatever their source.  What
a disk answers is a value of type `Except FileFault Bytes`, so that reading from disk is a
function of that answer (`Input.ofDisk`).
-/
import ClassGraft.Bytes.BigEndian
import ClassGraft.Fault

namespace ClassGraft

/-- Contents with at least one byte. -/
structure Input where
  bytes : Bytes
  nonempty : bytes ≠ []

namespace Input

/-- Contents that are already in memory. -/
def ofBytes (bytes : Bytes) : Except Fault Input :=
  if h : bytes = [] then .error .empty else .ok ⟨bytes, h⟩

/-- Contents as a disk answers them. -/
def ofDisk : Except FileFault Bytes → Except Fault Input
  | .ok bytes => ofBytes bytes
  | .error cause => .error (.file cause)

def size (input : Input) : Nat := input.bytes.length

def isEmpty (input : Input) : Bool := input.bytes.isEmpty

/-- The `length` bytes from `offset` on. -/
def slice (input : Input) (offset length : Nat) : Except Fault Bytes :=
  if offset + length ≤ input.size then .ok ((input.bytes.drop offset).take length)
  else .error .outOfBounds

end Input

end ClassGraft
