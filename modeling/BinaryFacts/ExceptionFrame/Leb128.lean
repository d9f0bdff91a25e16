import BinaryFacts.ExceptionFrame.Reader

/-!
# LEB128 numbers

Numbers in digits of seven bits, the lowest first. All bytes but the last have the top bit set. The
bits read so far are counted in a word of 32 bits, which wraps: behind more than 613 million digits
the places of a number start anew. A build that checks sums stops there instead.
-/

namespace BinaryFacts.Leb128

open ExceptionFrame (Cursor Reader)

/-- The number with a digit at its place. Places behind the word are left out. -/
def enter (number : UInt64) (shift : UInt32) (byte : UInt8) : UInt64 :=
  if shift < 64 then number ||| (byte &&& 0x7f).toUInt64 <<< shift.toUInt64 else number

def enterSigned (number : Int64) (shift : UInt32) (byte : UInt8) : Int64 :=
  if shift < 64 then number ||| (byte &&& 0x7f).toUInt64.toInt64 <<< shift.toUInt64.toInt64
  else number

/-- The number with its sign in all bits behind the last digit. -/
def extendSign (number : Int64) (shift : UInt32) (last : UInt8) : Int64 :=
  if shift < 64 ∧ last &&& 0x40 ≠ 0 then number ||| (-1) <<< shift.toUInt64.toInt64 else number

/-- Enters digits up to the first byte with a clear top bit, and finishes the number there. -/
def loop {ω : Type} (enter finish : ω → UInt32 → UInt8 → ω) (number : ω) (shift : UInt32)
    (offset : Nat) : List UInt8 → Option (ω × Cursor)
  | [] => none
  | byte :: rest =>
    let number := enter number shift byte
    let shift := shift + 7
    if byte &&& 0x80 = 0 then some (finish number shift byte, ⟨offset + 1, rest⟩)
    else loop enter finish number shift (offset + 1) rest

def readUnsigned : Reader UInt64 := fun cursor =>
  loop enter (fun number _ _ => number) 0 0 cursor.offset cursor.rest

def readSigned : Reader Int64 := fun cursor =>
  loop enterSigned extendSign 0 0 cursor.offset cursor.rest

end BinaryFacts.Leb128
