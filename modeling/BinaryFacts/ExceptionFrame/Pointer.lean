import BinaryFacts.Word
import BinaryFacts.ExceptionFrame.Leb128

/-!
# Encoded pointers

Readers of the fields of exception frames. A pointer's encoding gives the format of its field in
the low four bits and what the value is relative to in the next three.
-/

namespace BinaryFacts

/-- An exception-frame section: where it lies and how its words are laid out. -/
structure ExceptionFrame where
  address : UInt64
  order : Endian
  /-- The size of a native pointer in bytes. -/
  pointerSize : Nat
deriving DecidableEq, Inhabited

namespace ExceptionFrame

/-- A word of `8 * size` bits read as a signed number, in two's complement of 64 bits. -/
def signExtend (size : Nat) (word : UInt64) : UInt64 :=
  let bound : Nat := 1 <<< (8 * size)
  if 2 * word.toNat < bound then word else word - UInt64.ofNat bound

variable (frame : ExceptionFrame)

def unsigned (size : Nat) : Reader UInt64 := return frame.order.value (← Reader.take size)

def signed (size : Nat) : Reader UInt64 := return signExtend size (← frame.unsigned size)

/-- The field of a pointer, by the low four bits of its encoding. -/
def field (encoding : UInt8) : Reader UInt64 :=
  match encoding.toNat % 16 with
  | 0x0 => frame.unsigned frame.pointerSize
  | 0x1 => Leb128.readUnsigned
  | 0x2 => frame.unsigned 2
  | 0x3 => frame.unsigned 4
  | 0x4 => frame.unsigned 8
  | 0x9 => return (← Leb128.readSigned).toUInt64
  | 0xa => frame.signed 2
  | 0xb => frame.signed 4
  | 0xc => frame.unsigned 8
  | _ => failure

/-- The encoding of a pointer that is left out. -/
def omitted : UInt8 := 0xff

/-- A pointer. It is absolute or relative to its own field; the top bit of the encoding, by which
it would only point to a pointer, makes no difference. -/
def pointer (encoding : UInt8) : Reader UInt64 := do
  if encoding = omitted then failure
  let position := frame.address + UInt64.ofNat (← get).offset
  let value ← frame.field encoding
  match encoding.toNat / 16 % 8 with
  | 0 => return value
  | 1 => return position + value
  | _ => failure

end ExceptionFrame

end BinaryFacts
