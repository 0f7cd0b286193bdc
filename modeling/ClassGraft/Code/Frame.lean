/-
Stack map frames.

A frame states the types of locals and operands at one instruction.  In a class file a frame
holds the distance from the frame before it, less one, and one of several compact forms; here
it holds the position of its instruction.  `StackMap.read` and `StackMap.write` convert:
distances are taken from the layout of the code, and a compact form whose distance has grown
beyond 63 is written in its extended form.
-/
import ClassGraft.Code.Position

namespace ClassGraft

/-- The type of a local or an operand at a frame. -/
inductive VerificationType where
  | top
  | integer
  | float
  | double
  | long
  | null
  | uninitializedThis
  /-- An object of the class behind a pool index. -/
  | object (classIndex : UInt16)
  /-- The object that the instruction at a position creates. -/
  | uninitialized (position : Nat)
  deriving DecidableEq, Repr

namespace VerificationType

/-- The type with its position renumbered. -/
def mapPositions (f : Nat → Nat) : VerificationType → VerificationType
  | .uninitialized position => .uninitialized (f position)
  | t => t

def read (layout : Layout) : Reader VerificationType := do
  let tag ← Reader.u8
  match tag.toNat with
  | 0 => return .top
  | 1 => return .integer
  | 2 => return .float
  | 3 => return .double
  | 4 => return .long
  | 5 => return .null
  | 6 => return .uninitializedThis
  | 7 => return .object (← Reader.u16)
  | 8 => return .uninitialized (← layout.readPosition .stackMapFrame)
  | _ => Reader.malformed (.badVerificationTag tag)

def write (layout : Layout) : VerificationType → Except Fault Bytes
  | .top => return [0]
  | .integer => return [1]
  | .float => return [2]
  | .double => return [3]
  | .long => return [4]
  | .null => return [5]
  | .uninitializedThis => return [6]
  | .object classIndex => return 7 :: Bytes.ofU16 classIndex
  | .uninitialized position => return 8 :: (← layout.placeBytes position)

end VerificationType

/-- How the types at a frame differ from those at the frame before it. -/
inductive FrameKind where
  | same
  | sameExtended
  | oneOperand (item : VerificationType)
  | oneOperandExtended (item : VerificationType)
  /-- The last few locals are gone. -/
  | chop (removed : UInt8)
  /-- A few locals are new. -/
  | append (locals : List VerificationType)
  | full (locals stack : List VerificationType)
  deriving DecidableEq, Repr

namespace FrameKind

/-- The types that a frame mentions. -/
def types : FrameKind → List VerificationType
  | .same | .sameExtended | .chop _ => []
  | .oneOperand item | .oneOperandExtended item => [item]
  | .append locals => locals
  | .full locals stack => locals ++ stack

def mapPositions (f : Nat → Nat) : FrameKind → FrameKind
  | .oneOperand item => .oneOperand (item.mapPositions f)
  | .oneOperandExtended item => .oneOperandExtended (item.mapPositions f)
  | .append locals => .append (locals.map (VerificationType.mapPositions f))
  | .full locals stack =>
    .full (locals.map (VerificationType.mapPositions f))
      (stack.map (VerificationType.mapPositions f))
  | kind => kind

/-- A frame of known type byte: its distance and its kind. -/
def read (layout : Layout) (form : UInt8) : Reader (Nat × FrameKind) := do
  let n := form.toNat
  if n ≤ 63 then return (n, .same)
  else if n ≤ 127 then return (n - 64, .oneOperand (← VerificationType.read layout))
  else if n ≤ 246 then Reader.malformed (.reservedFrame form)
  else
    let distance := (← Reader.u16).toNat
    if n = 247 then return (distance, .oneOperandExtended (← VerificationType.read layout))
    else if n ≤ 250 then return (distance, .chop (251 - form))
    else if n = 251 then return (distance, .sameExtended)
    else if n ≤ 254 then
      return (distance, .append (← Reader.times (n - 251) (VerificationType.read layout)))
    else
      let locals ← Reader.table (VerificationType.read layout)
      let stack ← Reader.table (VerificationType.read layout)
      return (distance, .full locals stack)

/-- The bytes of a frame at a distance. -/
def write (layout : Layout) (distance : Nat) (kind : FrameKind) : Except Fault Bytes :=
  let far := BigEndian.encode 2 distance
  match kind with
  | .same => return if distance ≤ 63 then [UInt8.ofNat distance] else 251 :: far
  | .sameExtended => return 251 :: far
  | .oneOperand item => do
    let item ← item.write layout
    return if distance ≤ 63 then UInt8.ofNat (64 + distance) :: item else 247 :: far ++ item
  | .oneOperandExtended item => return 247 :: far ++ (← item.write layout)
  | .chop removed => return (251 - removed) :: far
  | .append locals =>
    return UInt8.ofNat (251 + locals.length) :: far ++
      (← Bytes.concatMapM (VerificationType.write layout) locals)
  | .full locals stack => do
    let locals ← Bytes.ofTableM (VerificationType.write layout) locals
    let stack ← Bytes.ofTableM (VerificationType.write layout) stack
    return 255 :: far ++ locals ++ stack

end FrameKind

/-- The types at one instruction. -/
structure StackMapFrame where
  /-- The position of the instruction. -/
  target : Nat
  kind : FrameKind
  deriving DecidableEq, Repr

namespace StackMapFrame

def mapPositions (f : Nat → Nat) (frame : StackMapFrame) : StackMapFrame :=
  ⟨f frame.target, frame.kind.mapPositions f⟩

/-- Whether the frame belongs to a position or mentions an object created there. -/
def references (frame : StackMapFrame) (position : Nat) : Bool :=
  frame.target == position || frame.kind.types.contains (.uninitialized position)

end StackMapFrame

namespace StackMap

/-- The offset that lies `distance` behind the frame before. -/
def offsetAfter (previous : Option Nat) (distance : Nat) : Nat :=
  match previous with
  | none => distance
  | some offset => offset + distance + 1

/-- Reads `n` frames onto those in `done`, which stand in reverse. -/
def readFrames (layout : Layout) :
    Nat → Option Nat → List StackMapFrame → Reader (List StackMapFrame)
  | 0, _, done => pure done.reverse
  | n + 1, previous, done => do
    let (distance, kind) ← FrameKind.read layout (← Reader.u8)
    let offset := offsetAfter previous distance
    let target ← Reader.ofExcept (layout.position .stackMapFrame offset)
    readFrames layout n (some offset) (⟨target, kind⟩ :: done)

/-- The contents of a stack map attribute. -/
def read (layout : Layout) : Reader (List StackMapFrame) := do
  let frames ← readFrames layout (← Reader.u16).toNat none []
  let left ← Reader.remaining
  if left = 0 then return frames else Reader.malformed (.frameTrailing left)

/-- The frames in the bytes of an attribute. -/
def parse (layout : Layout) (info : Bytes) : Except Fault (List StackMapFrame) :=
  (read layout).eval info

/-- How far an offset lies behind the frame before it; frames stand in ascending order. -/
def distance (previous : Option Nat) (offset : Nat) : Except Fault Nat :=
  match previous with
  | none => .ok offset
  | some before =>
    if before < offset then .ok (offset - before - 1)
    else .error (.malformed (.frameOutOfOrder offset))

/-- Writes frames behind those in `done`, which stand in reverse. -/
def writeFrames (layout : Layout) :
    Option Nat → List StackMapFrame → List Bytes → Except Fault Bytes
  | _, [], done => .ok done.reverse.flatten
  | previous, frame :: rest, done => do
    let offset ← layout.place frame.target
    let bytes ← frame.kind.write layout (← distance previous offset)
    writeFrames layout (some offset) rest (bytes :: done)

/-- The contents of a stack map attribute with given frames. -/
def write (layout : Layout) (frames : List StackMapFrame) : Except Fault Bytes := do
  if frames.length ≤ 65535 then
    return BigEndian.encode 2 frames.length ++ (← writeFrames layout none frames [])
  else throw (.malformed (.tooManyFrames frames.length))

end StackMap

end ClassGraft
