import BinaryFacts.Word
import BinaryFacts.Instruction.Operand

/-!
# Raw instructions

What a disassembling library reports about one instruction. Operands come in the library's order,
the destination first.
-/

namespace BinaryFacts

/-- The readings of machine code that a disassembling library offers. -/
inductive CodeMode where
  | x64
  | mips32 (order : Endian)
  | arm (order : Endian)
  | thumb (order : Endian)
deriving DecidableEq, Inhabited

/-- A register as the library numbers it; number 0 stands for no register. -/
structure RawRegister where
  id : Nat
  name : Option String
deriving DecidableEq, Inhabited

/-- How an instruction uses an operand. -/
inductive OperandAccess where
  | read
  | write
  | readWrite
deriving DecidableEq, Inhabited

inductive RawOperandKind where
  | register (register : RawRegister)
  | systemRegister (register : RawRegister)
  | immediate (value : Int64)
  | coprocessorRegister (number : Int)
  | coprocessor (number : Int)
  /-- `size` is the width of the access in bytes, where the library gives one. -/
  | memory (segment base index : RawRegister) (scale displacement : Int64) (size : UInt8)
  | floatingPoint
  | endianness
  | invalid
deriving DecidableEq, Inhabited

structure RawOperand where
  kind : RawOperandKind
  access : Option OperandAccess := none
deriving DecidableEq, Inhabited

structure RawInstruction where
  mnemonic : String
  /-- The number of bytes that the instruction takes. -/
  size : UInt64
  operands : List RawOperand
deriving DecidableEq, Inhabited

/-- The instruction at the start of some bytes, taken to be at an address. -/
abbrev Disassembler := CodeMode → List UInt8 → UInt64 → Option RawInstruction

end BinaryFacts
