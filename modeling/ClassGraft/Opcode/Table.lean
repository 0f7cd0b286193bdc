/-
The opcode table.

Every defined opcode has a mnemonic, a form of operand bytes, a number of stack slots that it
pops and pushes, and a way in which control goes on.  The opcodes are the numbers from `0x00`
to `0xC9` without a gap, so the table is a list in order and `Opcode.info?` looks up by place.
Slots are counted so that a `long` or a `double` counts twice; an effect that depends on a
constant or on an operand is `none` here.
-/

namespace ClassGraft

/-- The byte that opens an instruction. -/
abbrev Opcode := UInt8

/-- The form of the bytes that follow an opcode. -/
inductive OperandForm where
  /-- No operand bytes. -/
  | none
  /-- So many operand bytes. -/
  | fixed (count : Nat)
  /-- A signed displacement of two bytes. -/
  | branch16
  /-- A signed displacement of four bytes. -/
  | branch32
  /-- Padding, default, low, high and displacements. -/
  | tableSwitch
  /-- Padding, default, a count, and keys with displacements. -/
  | lookupSwitch
  /-- An opcode that is widened, with its own wider operands. -/
  | wide
  deriving DecidableEq, Repr

/-- Where control goes on after an instruction. -/
inductive Flow where
  | sequential
  | conditional
  | jump
  | subroutine
  | subroutineReturn
  | switch
  | exit
  | throw
  deriving DecidableEq, Repr

/-- What is known about an opcode. -/
structure OpcodeInfo where
  mnemonic : String
  operands : OperandForm
  /-- Slots popped, none where they depend on a constant or an operand. -/
  pops : Option Nat
  /-- Slots pushed, none where they depend on a constant or an operand. -/
  pushes : Option Nat
  flow : Flow
  deriving DecidableEq, Repr

namespace Opcode

/-- The defined opcodes in order. -/
def table : Array OpcodeInfo := #[
  ⟨"nop", .none, some 0, some 0, .sequential⟩,
  ⟨"aconst_null", .none, some 0, some 1, .sequential⟩,
  ⟨"iconst_m1", .none, some 0, some 1, .sequential⟩,
  ⟨"iconst_0", .none, some 0, some 1, .sequential⟩,
  ⟨"iconst_1", .none, some 0, some 1, .sequential⟩,
  ⟨"iconst_2", .none, some 0, some 1, .sequential⟩,
  ⟨"iconst_3", .none, some 0, some 1, .sequential⟩,
  ⟨"iconst_4", .none, some 0, some 1, .sequential⟩,
  ⟨"iconst_5", .none, some 0, some 1, .sequential⟩,
  ⟨"lconst_0", .none, some 0, some 2, .sequential⟩,
  ⟨"lconst_1", .none, some 0, some 2, .sequential⟩,
  ⟨"fconst_0", .none, some 0, some 1, .sequential⟩,
  ⟨"fconst_1", .none, some 0, some 1, .sequential⟩,
  ⟨"fconst_2", .none, some 0, some 1, .sequential⟩,
  ⟨"dconst_0", .none, some 0, some 2, .sequential⟩,
  ⟨"dconst_1", .none, some 0, some 2, .sequential⟩,
  ⟨"bipush", .fixed 1, some 0, some 1, .sequential⟩,
  ⟨"sipush", .fixed 2, some 0, some 1, .sequential⟩,
  ⟨"ldc", .fixed 1, some 0, some 1, .sequential⟩,
  ⟨"ldc_w", .fixed 2, some 0, some 1, .sequential⟩,
  ⟨"ldc2_w", .fixed 2, some 0, some 2, .sequential⟩,
  ⟨"iload", .fixed 1, some 0, some 1, .sequential⟩,
  ⟨"lload", .fixed 1, some 0, some 2, .sequential⟩,
  ⟨"fload", .fixed 1, some 0, some 1, .sequential⟩,
  ⟨"dload", .fixed 1, some 0, some 2, .sequential⟩,
  ⟨"aload", .fixed 1, some 0, some 1, .sequential⟩,
  ⟨"iload_0", .none, some 0, some 1, .sequential⟩,
  ⟨"iload_1", .none, some 0, some 1, .sequential⟩,
  ⟨"iload_2", .none, some 0, some 1, .sequential⟩,
  ⟨"iload_3", .none, some 0, some 1, .sequential⟩,
  ⟨"lload_0", .none, some 0, some 2, .sequential⟩,
  ⟨"lload_1", .none, some 0, some 2, .sequential⟩,
  ⟨"lload_2", .none, some 0, some 2, .sequential⟩,
  ⟨"lload_3", .none, some 0, some 2, .sequential⟩,
  ⟨"fload_0", .none, some 0, some 1, .sequential⟩,
  ⟨"fload_1", .none, some 0, some 1, .sequential⟩,
  ⟨"fload_2", .none, some 0, some 1, .sequential⟩,
  ⟨"fload_3", .none, some 0, some 1, .sequential⟩,
  ⟨"dload_0", .none, some 0, some 2, .sequential⟩,
  ⟨"dload_1", .none, some 0, some 2, .sequential⟩,
  ⟨"dload_2", .none, some 0, some 2, .sequential⟩,
  ⟨"dload_3", .none, some 0, some 2, .sequential⟩,
  ⟨"aload_0", .none, some 0, some 1, .sequential⟩,
  ⟨"aload_1", .none, some 0, some 1, .sequential⟩,
  ⟨"aload_2", .none, some 0, some 1, .sequential⟩,
  ⟨"aload_3", .none, some 0, some 1, .sequential⟩,
  ⟨"iaload", .none, some 2, some 1, .sequential⟩,
  ⟨"laload", .none, some 2, some 2, .sequential⟩,
  ⟨"faload", .none, some 2, some 1, .sequential⟩,
  ⟨"daload", .none, some 2, some 2, .sequential⟩,
  ⟨"aaload", .none, some 2, some 1, .sequential⟩,
  ⟨"baload", .none, some 2, some 1, .sequential⟩,
  ⟨"caload", .none, some 2, some 1, .sequential⟩,
  ⟨"saload", .none, some 2, some 1, .sequential⟩,
  ⟨"istore", .fixed 1, some 1, some 0, .sequential⟩,
  ⟨"lstore", .fixed 1, some 2, some 0, .sequential⟩,
  ⟨"fstore", .fixed 1, some 1, some 0, .sequential⟩,
  ⟨"dstore", .fixed 1, some 2, some 0, .sequential⟩,
  ⟨"astore", .fixed 1, some 1, some 0, .sequential⟩,
  ⟨"istore_0", .none, some 1, some 0, .sequential⟩,
  ⟨"istore_1", .none, some 1, some 0, .sequential⟩,
  ⟨"istore_2", .none, some 1, some 0, .sequential⟩,
  ⟨"istore_3", .none, some 1, some 0, .sequential⟩,
  ⟨"lstore_0", .none, some 2, some 0, .sequential⟩,
  ⟨"lstore_1", .none, some 2, some 0, .sequential⟩,
  ⟨"lstore_2", .none, some 2, some 0, .sequential⟩,
  ⟨"lstore_3", .none, some 2, some 0, .sequential⟩,
  ⟨"fstore_0", .none, some 1, some 0, .sequential⟩,
  ⟨"fstore_1", .none, some 1, some 0, .sequential⟩,
  ⟨"fstore_2", .none, some 1, some 0, .sequential⟩,
  ⟨"fstore_3", .none, some 1, some 0, .sequential⟩,
  ⟨"dstore_0", .none, some 2, some 0, .sequential⟩,
  ⟨"dstore_1", .none, some 2, some 0, .sequential⟩,
  ⟨"dstore_2", .none, some 2, some 0, .sequential⟩,
  ⟨"dstore_3", .none, some 2, some 0, .sequential⟩,
  ⟨"astore_0", .none, some 1, some 0, .sequential⟩,
  ⟨"astore_1", .none, some 1, some 0, .sequential⟩,
  ⟨"astore_2", .none, some 1, some 0, .sequential⟩,
  ⟨"astore_3", .none, some 1, some 0, .sequential⟩,
  ⟨"iastore", .none, some 3, some 0, .sequential⟩,
  ⟨"lastore", .none, some 4, some 0, .sequential⟩,
  ⟨"fastore", .none, some 3, some 0, .sequential⟩,
  ⟨"dastore", .none, some 4, some 0, .sequential⟩,
  ⟨"aastore", .none, some 3, some 0, .sequential⟩,
  ⟨"bastore", .none, some 3, some 0, .sequential⟩,
  ⟨"castore", .none, some 3, some 0, .sequential⟩,
  ⟨"sastore", .none, some 3, some 0, .sequential⟩,
  ⟨"pop", .none, some 1, some 0, .sequential⟩,
  ⟨"pop2", .none, some 2, some 0, .sequential⟩,
  ⟨"dup", .none, some 1, some 2, .sequential⟩,
  ⟨"dup_x1", .none, some 2, some 3, .sequential⟩,
  ⟨"dup_x2", .none, some 3, some 4, .sequential⟩,
  ⟨"dup2", .none, some 2, some 4, .sequential⟩,
  ⟨"dup2_x1", .none, some 3, some 5, .sequential⟩,
  ⟨"dup2_x2", .none, some 4, some 6, .sequential⟩,
  ⟨"swap", .none, some 2, some 2, .sequential⟩,
  ⟨"iadd", .none, some 2, some 1, .sequential⟩,
  ⟨"ladd", .none, some 4, some 2, .sequential⟩,
  ⟨"fadd", .none, some 2, some 1, .sequential⟩,
  ⟨"dadd", .none, some 4, some 2, .sequential⟩,
  ⟨"isub", .none, some 2, some 1, .sequential⟩,
  ⟨"lsub", .none, some 4, some 2, .sequential⟩,
  ⟨"fsub", .none, some 2, some 1, .sequential⟩,
  ⟨"dsub", .none, some 4, some 2, .sequential⟩,
  ⟨"imul", .none, some 2, some 1, .sequential⟩,
  ⟨"lmul", .none, some 4, some 2, .sequential⟩,
  ⟨"fmul", .none, some 2, some 1, .sequential⟩,
  ⟨"dmul", .none, some 4, some 2, .sequential⟩,
  ⟨"idiv", .none, some 2, some 1, .sequential⟩,
  ⟨"ldiv", .none, some 4, some 2, .sequential⟩,
  ⟨"fdiv", .none, some 2, some 1, .sequential⟩,
  ⟨"ddiv", .none, some 4, some 2, .sequential⟩,
  ⟨"irem", .none, some 2, some 1, .sequential⟩,
  ⟨"lrem", .none, some 4, some 2, .sequential⟩,
  ⟨"frem", .none, some 2, some 1, .sequential⟩,
  ⟨"drem", .none, some 4, some 2, .sequential⟩,
  ⟨"ineg", .none, some 1, some 1, .sequential⟩,
  ⟨"lneg", .none, some 2, some 2, .sequential⟩,
  ⟨"fneg", .none, some 1, some 1, .sequential⟩,
  ⟨"dneg", .none, some 2, some 2, .sequential⟩,
  ⟨"ishl", .none, some 2, some 1, .sequential⟩,
  ⟨"lshl", .none, some 3, some 2, .sequential⟩,
  ⟨"ishr", .none, some 2, some 1, .sequential⟩,
  ⟨"lshr", .none, some 3, some 2, .sequential⟩,
  ⟨"iushr", .none, some 2, some 1, .sequential⟩,
  ⟨"lushr", .none, some 3, some 2, .sequential⟩,
  ⟨"iand", .none, some 2, some 1, .sequential⟩,
  ⟨"land", .none, some 4, some 2, .sequential⟩,
  ⟨"ior", .none, some 2, some 1, .sequential⟩,
  ⟨"lor", .none, some 4, some 2, .sequential⟩,
  ⟨"ixor", .none, some 2, some 1, .sequential⟩,
  ⟨"lxor", .none, some 4, some 2, .sequential⟩,
  ⟨"iinc", .fixed 2, some 0, some 0, .sequential⟩,
  ⟨"i2l", .none, some 1, some 2, .sequential⟩,
  ⟨"i2f", .none, some 1, some 1, .sequential⟩,
  ⟨"i2d", .none, some 1, some 2, .sequential⟩,
  ⟨"l2i", .none, some 2, some 1, .sequential⟩,
  ⟨"l2f", .none, some 2, some 1, .sequential⟩,
  ⟨"l2d", .none, some 2, some 2, .sequential⟩,
  ⟨"f2i", .none, some 1, some 1, .sequential⟩,
  ⟨"f2l", .none, some 1, some 2, .sequential⟩,
  ⟨"f2d", .none, some 1, some 2, .sequential⟩,
  ⟨"d2i", .none, some 2, some 1, .sequential⟩,
  ⟨"d2l", .none, some 2, some 2, .sequential⟩,
  ⟨"d2f", .none, some 2, some 1, .sequential⟩,
  ⟨"i2b", .none, some 1, some 1, .sequential⟩,
  ⟨"i2c", .none, some 1, some 1, .sequential⟩,
  ⟨"i2s", .none, some 1, some 1, .sequential⟩,
  ⟨"lcmp", .none, some 4, some 1, .sequential⟩,
  ⟨"fcmpl", .none, some 2, some 1, .sequential⟩,
  ⟨"fcmpg", .none, some 2, some 1, .sequential⟩,
  ⟨"dcmpl", .none, some 4, some 1, .sequential⟩,
  ⟨"dcmpg", .none, some 4, some 1, .sequential⟩,
  ⟨"ifeq", .branch16, some 1, some 0, .conditional⟩,
  ⟨"ifne", .branch16, some 1, some 0, .conditional⟩,
  ⟨"iflt", .branch16, some 1, some 0, .conditional⟩,
  ⟨"ifge", .branch16, some 1, some 0, .conditional⟩,
  ⟨"ifgt", .branch16, some 1, some 0, .conditional⟩,
  ⟨"ifle", .branch16, some 1, some 0, .conditional⟩,
  ⟨"if_icmpeq", .branch16, some 2, some 0, .conditional⟩,
  ⟨"if_icmpne", .branch16, some 2, some 0, .conditional⟩,
  ⟨"if_icmplt", .branch16, some 2, some 0, .conditional⟩,
  ⟨"if_icmpge", .branch16, some 2, some 0, .conditional⟩,
  ⟨"if_icmpgt", .branch16, some 2, some 0, .conditional⟩,
  ⟨"if_icmple", .branch16, some 2, some 0, .conditional⟩,
  ⟨"if_acmpeq", .branch16, some 2, some 0, .conditional⟩,
  ⟨"if_acmpne", .branch16, some 2, some 0, .conditional⟩,
  ⟨"goto", .branch16, some 0, some 0, .jump⟩,
  ⟨"jsr", .branch16, some 0, some 1, .subroutine⟩,
  ⟨"ret", .fixed 1, some 0, some 0, .subroutineReturn⟩,
  ⟨"tableswitch", .tableSwitch, some 1, some 0, .switch⟩,
  ⟨"lookupswitch", .lookupSwitch, some 1, some 0, .switch⟩,
  ⟨"ireturn", .none, some 1, some 0, .exit⟩,
  ⟨"lreturn", .none, some 2, some 0, .exit⟩,
  ⟨"freturn", .none, some 1, some 0, .exit⟩,
  ⟨"dreturn", .none, some 2, some 0, .exit⟩,
  ⟨"areturn", .none, some 1, some 0, .exit⟩,
  ⟨"return", .none, some 0, some 0, .exit⟩,
  ⟨"getstatic", .fixed 2, none, none, .sequential⟩,
  ⟨"putstatic", .fixed 2, none, none, .sequential⟩,
  ⟨"getfield", .fixed 2, none, none, .sequential⟩,
  ⟨"putfield", .fixed 2, none, none, .sequential⟩,
  ⟨"invokevirtual", .fixed 2, none, none, .sequential⟩,
  ⟨"invokespecial", .fixed 2, none, none, .sequential⟩,
  ⟨"invokestatic", .fixed 2, none, none, .sequential⟩,
  ⟨"invokeinterface", .fixed 4, none, none, .sequential⟩,
  ⟨"invokedynamic", .fixed 4, none, none, .sequential⟩,
  ⟨"new", .fixed 2, some 0, some 1, .sequential⟩,
  ⟨"newarray", .fixed 1, some 1, some 1, .sequential⟩,
  ⟨"anewarray", .fixed 2, some 1, some 1, .sequential⟩,
  ⟨"arraylength", .none, some 1, some 1, .sequential⟩,
  ⟨"athrow", .none, some 1, some 0, .throw⟩,
  ⟨"checkcast", .fixed 2, some 1, some 1, .sequential⟩,
  ⟨"instanceof", .fixed 2, some 1, some 1, .sequential⟩,
  ⟨"monitorenter", .none, some 1, some 0, .sequential⟩,
  ⟨"monitorexit", .none, some 1, some 0, .sequential⟩,
  ⟨"wide", .wide, none, none, .sequential⟩,
  ⟨"multianewarray", .fixed 3, none, some 1, .sequential⟩,
  ⟨"ifnull", .branch16, some 1, some 0, .conditional⟩,
  ⟨"ifnonnull", .branch16, some 1, some 0, .conditional⟩,
  ⟨"goto_w", .branch32, some 0, some 0, .jump⟩,
  ⟨"jsr_w", .branch32, some 0, some 1, .subroutine⟩]

/-- What is known about an opcode, if it is defined. -/
def info? (op : Opcode) : Option OpcodeInfo := table[op.toNat]?

/-! ### Opcodes that the library speaks of by name -/

def nop : Opcode := 0x00
def iload : Opcode := 0x15
def iload0 : Opcode := 0x1A
def istore : Opcode := 0x36
def istore0 : Opcode := 0x3B
def pop : Opcode := 0x57
def pop2 : Opcode := 0x58
def iinc : Opcode := 0x84
def ret : Opcode := 0xA9
def tableswitch : Opcode := 0xAA
def lookupswitch : Opcode := 0xAB
def ireturn : Opcode := 0xAC
def voidReturn : Opcode := 0xB1
def getstatic : Opcode := 0xB2
def putstatic : Opcode := 0xB3
def getfield : Opcode := 0xB4
def putfield : Opcode := 0xB5
def invokevirtual : Opcode := 0xB6
def invokespecial : Opcode := 0xB7
def invokestatic : Opcode := 0xB8
def invokeinterface : Opcode := 0xB9
def invokedynamic : Opcode := 0xBA
def wide : Opcode := 0xC4
def multianewarray : Opcode := 0xC5

end Opcode

end ClassGraft
