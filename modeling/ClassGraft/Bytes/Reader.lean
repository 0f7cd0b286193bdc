/-
Reading bytes from left to right.

A `Cursor` is a place in a run of bytes: how many bytes lie before it and which lie ahead.  A
`Reader` moves the cursor and yields a value or a fault.  A primitive read that fails leaves
the cursor where it was; a compound read that fails leaves it where its failing part began, and
`Reader.transaction` restores it.

* `Reader.bytes` is the one primitive that all fixed-width reads are made of;
* `Reader.table` is the format's repetition: a two-byte count, then so many items.
-/
import ClassGraft.Bytes.BigEndian
import ClassGraft.Fault

namespace ClassGraft

/-- A place in a run of bytes. -/
structure Cursor where
  /-- How many bytes lie before the cursor. -/
  pos : Nat
  /-- The bytes that lie ahead. -/
  rest : Bytes
  deriving DecidableEq, Repr

/-- The cursor before the first byte. -/
def Cursor.start (bytes : Bytes) : Cursor := ⟨0, bytes⟩

/-- A computation that consumes bytes. -/
abbrev Reader := EStateM Fault Cursor

namespace Reader

/-- How many bytes lie before the cursor. -/
def pos : Reader Nat := fun c => .ok c.pos c

/-- How many bytes lie ahead. -/
def remaining : Reader Nat := fun c => .ok c.rest.length c

/-- Whether bytes lie ahead. -/
def more : Reader Bool := fun c => .ok (!c.rest.isEmpty) c

/-- The next `n` bytes. -/
def bytes (n : Nat) : Reader Bytes := fun c =>
  let front := c.rest.take n
  if front.length = n then .ok front ⟨c.pos + n, c.rest.drop n⟩ else .error .outOfBounds c

/-- Fails unless `n` bytes lie ahead; reads none of them. -/
def ensure (n : Nat) : Reader Unit := fun c =>
  if (c.rest.take n).length = n then .ok () c else .error .outOfBounds c

/-- Passes over `n` bytes. -/
def skip (n : Nat) : Reader Unit := do let _ ← bytes n

/-- The next byte, which stays unread. -/
def peek : Reader UInt8 := fun c =>
  match c.rest with
  | [] => .error .outOfBounds c
  | b :: _ => .ok b c

/-- Moves to an absolute place in `whole`, the run of bytes that is being read. -/
def seek (whole : Bytes) (n : Nat) : Reader Unit := fun c =>
  if n ≤ whole.length then .ok () ⟨n, whole.drop n⟩ else .error .outOfBounds c

/-- How many bytes separate `pos` from the next multiple of `alignment`. -/
def padding (alignment pos : Nat) : Nat := (alignment - pos % alignment) % alignment

/-- Passes over the bytes up to the next multiple of `alignment`; there are no multiples of 0. -/
def align (alignment : Nat) (_ : 0 < alignment) : Reader Unit := do
  skip (padding alignment (← pos))

/-- The next `width` bytes as a number. -/
def word (width : Nat) : Reader Nat := do return BigEndian.decode (← bytes width)

def u8 : Reader UInt8 := do return UInt8.ofNat (← word 1)

def u16 : Reader UInt16 := do return UInt16.ofNat (← word 2)

def u32 : Reader UInt32 := do return UInt32.ofNat (← word 4)

def u64 : Reader UInt64 := do return UInt64.ofNat (← word 8)

def i8 : Reader Int8 := do return (← u8).toInt8

def i16 : Reader Int16 := do return (← u16).toInt16

def i32 : Reader Int32 := do return (← u32).toInt32

def i64 : Reader Int64 := do return (← u64).toInt64

/-- Reads `n` items onto those in `done`, which stand in reverse. -/
def timesOnto {α : Type} (item : Reader α) : Nat → List α → Reader (List α)
  | 0, done => pure done.reverse
  | n + 1, done => do
    let x ← item
    timesOnto item n (x :: done)

/-- Reads `n` items. -/
def times {α : Type} (n : Nat) (item : Reader α) : Reader (List α) := timesOnto item n []

/-- A two-byte count and so many items. -/
def table {α : Type} (item : Reader α) : Reader (List α) := do
  times (← u16).toNat item

/-- Runs `r`; where it fails, the cursor stays where it was. -/
def transaction {α : Type} (r : Reader α) : Reader α := fun c =>
  match r c with
  | .ok x c' => .ok x c'
  | .error fault _ => .error fault c

/-- Runs `r`; where it fails, `f` names the fault anew. -/
def mapFault {α : Type} (f : Fault → Fault) (r : Reader α) : Reader α := fun c =>
  match r c with
  | .ok x c' => .ok x c'
  | .error fault c' => .error (f fault) c'

/-- Lifts a result that needs no bytes. -/
def ofExcept {α : Type} : Except Fault α → Reader α
  | .ok x => pure x
  | .error fault => throw fault

/-- Gives up because the bytes are not what they should be. -/
def malformed {α : Type} (cause : Malformation) : Reader α := throw (.malformed cause)

/-- The value that a reader yields from the start of `bytes`. -/
def eval {α : Type} (r : Reader α) (bytes : Bytes) : Except Fault α :=
  match r (Cursor.start bytes) with
  | .ok x _ => .ok x
  | .error fault _ => .error fault

end Reader

end ClassGraft
