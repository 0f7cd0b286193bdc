/-
Faults: every reason for which a class file is refused or a graft is given up.

A fault is a cause with the data that describes it; its wording lives in one function per
family, so that a proof can speak of causes and a user reads sentences:

* `Malformation` — bytes or a model that are not a class file (`Malformation.message`);
* `Shape` — a method body that does not look as an edit needs it (`Shape.message`);
* `RecordFault` — a line of mapping text that cannot be understood;
* `FileFault` — what the file system answers;
* `Fault` — the union of these with the remaining single causes (`Fault.message`).  The last of
  them, `Fault.overflow`, is no answer but the end of the program.
-/
import ClassGraft.Text.Hex
import ClassGraft.Descriptor.Kind
import ClassGraft.Pool.Kind

namespace ClassGraft

/-- Which table a code offset stands in. -/
inductive Anchorage where
  | handlerStart
  | handlerEnd
  | handlerEntry
  | lineNumber
  | variableStart
  | variableEnd
  | stackMapFrame
  deriving DecidableEq, Repr

/-- The table entry as messages name it. -/
def Anchorage.label : Anchorage → String
  | .handlerStart => "Handler start"
  | .handlerEnd => "Handler end"
  | .handlerEntry => "Handler"
  | .lineNumber => "Line number"
  | .variableStart => "Local variable start"
  | .variableEnd => "Local variable end"
  | .stackMapFrame => "Stack map frame"

/-- Why a run of bytes is not standard UTF-8: a sequence that no continuation could mend, or
one that the end of the text cuts off. -/
inductive Utf8Fault where
  | invalid (length index : Nat)
  | incomplete (index : Nat)
  deriving DecidableEq, Repr

def Utf8Fault.message : Utf8Fault → String
  | .invalid length index =>
    s!"invalid utf-8 sequence of {length} bytes from index {index}"
  | .incomplete index => s!"incomplete utf-8 byte sequence from index {index}"

/-- What is wrong with bytes, or with a model that is to become bytes. -/
inductive Malformation where
  /- Text. -/
  | badUtf8Byte (byte : UInt8) (index : Nat)
  | cutUtf8Sequence (index : Nat)
  | mappingNotUtf8 (fault : Utf8Fault)
  /- Constant pool. -/
  | poolCountZero
  | unknownTag (tag : UInt8) (offset : Nat)
  | wideInLastSlot (slot : Nat)
  | danglingConstant (source : Nat) (index : UInt16)
  | mistypedConstant (source : Nat) (index : UInt16) (found expected : ConstantKind)
  | badReferenceKind (source : Nat) (kind : UInt8)
  | badIndex (index : UInt16)
  | unexpectedConstant (index : UInt16) (found : ConstantKind) (expected : PoolRole)
  | utf8TooLong (length : Nat)
  /- Instructions. -/
  | invalidOpcode (opcode : UInt8) (offset : Nat)
  | cutInstruction (offset : Nat)
  | branchBeforeCode (offset : Nat)
  | branchOffInstruction (index offset target : Nat)
  | invertedTableSwitch (offset : Nat) (high low : Int)
  | negativePairCount (offset : Nat) (count : Int)
  | badWideForm (offset : Nat) (modified : UInt8)
  | codeTooLong (method : String) (length limit : Nat)
  | missingTarget (index : Nat) (method : String) (target : Nat)
  | tooManySwitchTargets (method : String)
  | noFixedEffect (opcode : UInt8)
  | missingPoolOperand
  | arrayWithoutDimensions
  | wideWithoutOpcode
  /- Method bodies. -/
  | emptyCode
  | invalidHandler (start stop entry : Nat)
  | offBoundary (place : Anchorage) (offset : Nat)
  | noOffset (index : Nat)
  | lineTableTrailing
  | variableTableTrailing
  | codeTrailing (count : Nat)
  /- Stack map frames. -/
  | badVerificationTag (tag : UInt8)
  | reservedFrame (kind : UInt8)
  | frameTrailing (count : Nat)
  | tooManyFrames (count : Nat)
  | frameOutOfOrder (offset : Nat)
  /- The file as a whole. -/
  | badMagic (magic : UInt32)
  | classTrailing (count : Nat)
  | truncated (length : Nat)
  | attributeTooLarge (length : Nat)
  deriving DecidableEq, Repr

/-- The sentence that describes a malformation. -/
def Malformation.message : Malformation → String
  | .badUtf8Byte byte index =>
    s!"Invalid modified Utf8 byte 0x{Hex.upper 2 byte.toNat} at {index}"
  | .cutUtf8Sequence index => s!"Truncated modified Utf8 sequence at {index}"
  | .mappingNotUtf8 fault => s!"Mapping file is not UTF-8 - {fault.message}"
  | .poolCountZero => "constant_pool_count must be at least 1"
  | .unknownTag tag offset => s!"Unknown constant pool tag {tag.toNat} at offset {offset}"
  | .wideInLastSlot slot => s!"Long or Double constant in the last pool slot {slot}"
  | .danglingConstant source index =>
    s!"Constant {source} refers to invalid index {index.toNat}"
  | .mistypedConstant source index found expected =>
    s!"Constant {source} refers to {index.toNat} ({found.label}), expected tag {expected.tag.toNat}"
  | .badReferenceKind source kind =>
    s!"MethodHandle {source} has invalid reference kind {kind.toNat}"
  | .badIndex index => s!"Invalid constant pool index {index.toNat}"
  | .unexpectedConstant index found expected =>
    s!"Constant {index.toNat} is {found.label}, expected {expected.label}"
  | .utf8TooLong length => s!"Utf8 constant too long - {length}"
  | .invalidOpcode opcode offset =>
    s!"Invalid opcode 0x{Hex.upper 2 opcode.toNat} at offset {offset}"
  | .cutInstruction offset =>
    s!"Instruction at offset {offset} runs past the end of the code"
  | .branchBeforeCode offset => s!"Branch at offset {offset} jumps before the code"
  | .branchOffInstruction index offset target =>
    s!"Instruction {index} at offset {offset} branches to offset {target}, not an instruction"
  | .invertedTableSwitch offset high low =>
    s!"tableswitch at offset {offset} has high {high} below low {low}"
  | .negativePairCount offset count =>
    s!"lookupswitch at offset {offset} has {count} pairs"
  | .badWideForm offset modified =>
    s!"wide at offset {offset} modifies 0x{Hex.upper 2 modified.toNat}"
  | .codeTooLong method length limit =>
    s!"Code of {method} is {length} bytes, limit is {limit}"
  | .missingTarget index method target =>
    s!"Instruction {index} in {method} targets nonexistent instruction {target}"
  | .tooManySwitchTargets method => s!"tableswitch in {method} has too many targets"
  | .noFixedEffect opcode =>
    s!"No fixed stack effect for opcode 0x{Hex.upper 2 opcode.toNat}"
  | .missingPoolOperand => "Missing constant pool operand"
  | .arrayWithoutDimensions => "multianewarray without dimensions"
  | .wideWithoutOpcode => "wide without an opcode"
  | .emptyCode => "Code attribute with an empty code array"
  | .invalidHandler start stop entry =>
    s!"Invalid exception handler {start}..{stop} -> {entry}"
  | .offBoundary place offset =>
    s!"{place.label} offset {offset} is not an instruction boundary"
  | .noOffset index => s!"Instruction index {index} has no offset"
  | .lineTableTrailing => "LineNumberTable has trailing bytes"
  | .variableTableTrailing => "Local variable table has trailing bytes"
  | .codeTrailing count => s!"Code attribute has {count} trailing bytes"
  | .badVerificationTag tag => s!"Invalid verification type tag {tag.toNat}"
  | .reservedFrame kind => s!"Reserved stack map frame type {kind.toNat}"
  | .frameTrailing count => s!"StackMapTable has {count} trailing bytes"
  | .tooManyFrames count => s!"Too many stack map frames - {count}"
  | .frameOutOfOrder offset => s!"Stack map frame at offset {offset} is out of order"
  | .badMagic magic => s!"Invalid magic 0x{Hex.upper 8 magic.toNat}"
  | .classTrailing count => s!"{count} trailing bytes after the class file"
  | .truncated length => s!"Class file truncated - {length} bytes"
  | .attributeTooLarge length => s!"Attribute too large - {length}"

/-- How a method body differs from what an edit or a measurement needs.  Instructions and
members appear as they are printed in a listing. -/
inductive Shape where
  | nothingToRemove
  | stillReferenced (instruction : String)
  | runsOffTheEnd
  | depthMismatch (depth source existing : Nat)
  | stackTooDeep
  | notACall (instruction : String)
  | anchorOutOfRange
  | notBoolean (callee : String) (result : Option ValueKind)
  | noReceiver
  | noCoordinates (descriptor : String)
  | noFreeLocal
  | notAPop (instruction : String)
  | endsBeforePop
  deriving DecidableEq, Repr

/-- The sentence that describes an unexpected shape. -/
def Shape.message : Shape → String
  | .nothingToRemove => "no instruction to remove"
  | .stillReferenced instruction => s!"{instruction} is referenced and cannot be removed"
  | .runsOffTheEnd => "control flows past the last instruction"
  | .depthMismatch depth source existing =>
    s!"stack depth {depth} from instruction {source} does not match {existing}"
  | .stackTooDeep => "operand stack exceeds 65535 slots"
  | .notACall instruction => s!"anchor is {instruction}, not a call"
  | .anchorOutOfRange => "anchor is out of range"
  | .notBoolean callee result =>
    let kind := (result.map ValueKind.label).getD "void"
    s!"{callee} returns {kind}, expected a boolean"
  | .noReceiver => "method has no receiver"
  | .noCoordinates descriptor =>
    s!"{descriptor} does not start with three int coordinates"
  | .noFreeLocal => "no free local variable slot"
  | .notAPop instruction => s!"expected pop after the injected call, found {instruction}"
  | .endsBeforePop => "method ends before the pop after the injected call"

/-- The members that a mapping record can name by a path. -/
inductive MemberSort where
  | field
  | method
  deriving DecidableEq, Repr

def MemberSort.label : MemberSort → String
  | .field => "field"
  | .method => "method"

/-- What is wrong with one line of mapping text. -/
inductive RecordFault where
  | unknownKind (kind : String)
  | valueCount (kind : String) (count : Nat)
  | noOwner (member : MemberSort)
  deriving DecidableEq, Repr

def RecordFault.message : RecordFault → String
  | .unknownKind kind => s!"unknown record kind {kind}"
  | .valueCount kind count => s!"wrong number of values for {kind} ({count})"
  | .noOwner member => s!"{member.label} path has no owner"

/-- The answers of a file system that refuses an access. -/
inductive FileFault where
  | notFound
  | notADirectory
  | isADirectory
  | noSuchDevice
  | nameTooLong
  | denied
  | other (code : Nat)
  deriving DecidableEq, Repr

def FileFault.message : FileFault → String
  | .notFound => "No such file or directory (os error 2)"
  | .notADirectory => "Not a directory (os error 20)"
  | .isADirectory => "Is a directory (os error 21)"
  | .noSuchDevice => "No such device (os error 19)"
  | .nameTooLong => "File name too long (os error 36)"
  | .denied => "Permission denied (os error 13)"
  | .other code => s!"Input/output error (os error {code})"

/-- Every way in which an operation of this library can fail. -/
inductive Fault where
  /-- The bytes or the model are not a class file. -/
  | malformed (cause : Malformation)
  /-- A read ran past the end of the input. -/
  | outOfBounds
  /-- There was nothing to read at all. -/
  | empty
  /-- A text that is not a field or method descriptor. -/
  | invalidDescriptor (text : String)
  /-- The constant pool has no room for another entry. -/
  | poolFull
  /-- A displacement does not fit its encoding. -/
  | branchOutOfRange (method : String) (index : Nat) (displacement : Int)
  /-- The class has no method of the wanted name. -/
  | methodNotFound (owner method : String)
  /-- The method never calls the wanted callee. -/
  | anchorNotFound (method callee : String)
  /-- A field that the grafted code reads was not found in the class. -/
  | unresolvedField (field : String)
  /-- The method body does not have the expected shape. -/
  | inconsistent (method : String) (index : Nat) (shape : Shape)
  /-- An instruction pops more than the operand stack holds. -/
  | stackUnderflow (method : String) (index : Nat)
  /-- A line of mapping text cannot be understood. -/
  | invalidMapping (line : Nat) (cause : RecordFault)
  /-- The file system refused. -/
  | file (cause : FileFault)
  /-- A sum of slots left sixteen bits, at which the program stops: nothing catches it. -/
  | overflow
  deriving DecidableEq, Repr

/-- The sentence that describes a fault. -/
def Fault.message : Fault → String
  | .malformed cause => s!"Malformed - {cause.message}"
  | .outOfBounds => "Out of Bound read would have occurred!"
  | .empty => "Provided input was empty"
  | .invalidDescriptor text => s!"Invalid descriptor - {text}"
  | .poolFull => "Constant pool exceeds 65535 entries"
  | .branchOutOfRange method index displacement =>
    s!"Branch at instruction {index} in {method} is out of range ({displacement})"
  | .methodNotFound owner method => s!"Method {method} not found in {owner}"
  | .anchorNotFound method callee => s!"Method {method} has no call to {callee}"
  | .unresolvedField field => s!"No descriptor recorded for field {field}"
  | .inconsistent method index shape =>
    s!"Unexpected shape in {method} at instruction {index}: {shape.message}"
  | .stackUnderflow method index => s!"Stack underflow in {method} at instruction {index}"
  | .invalidMapping line cause => s!"Invalid mapping at line {line}: {cause.message}"
  | .file cause => cause.message
  | .overflow => "attempt to add with overflow"

end ClassGraft
