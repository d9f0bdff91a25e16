import BinaryFacts.Decoder.Normal
import BinaryFacts.Instruction.Listing

/-!
# Decoders

A decoder looks at an address in one or two views, each a reading of the bytes there and an address
to record what it finds. ARM code is read both ways: as ARM at multiples of four, and as Thumb at
every even address, recorded at the odd address after it.
-/

namespace BinaryFacts

inductive Decoder where
  | x64
  | mips32 (order : Endian)
  | arm32 (order : Endian)
deriving DecidableEq, Inhabited

structure CodeView where
  mode : CodeMode
  /-- Where the instruction, or its absence, is recorded. -/
  recordAt : UInt64
deriving DecidableEq, Inhabited

/-- The first element moved to the end, where the destination belongs. -/
def rotateDestination {α : Type} : List α → List α
  | [] => []
  | first :: rest => rest ++ [first]

namespace Listing

/-- Records an instruction, or that there is none, at an address. The operands join the table in
the order of the library. -/
def record (listing : Listing) (address : UInt64) : Option NormalInstruction → Listing
  | none => listing.markInvalid address
  | some found =>
    let (indices, operands) := listing.operands.addAll found.operands
    { listing with operands }.add
      { address
        size := found.size
        modifier := found.modifier
        mnemonic := found.mnemonic
        operands := rotateDestination indices
        code1 := 0
        code2 := 0 }

end Listing

namespace Decoder

/-- The distance between the addresses to look at. -/
def step : Decoder → Nat
  | x64 => 1
  | mips32 _ => 4
  | arm32 _ => 2

theorem step_pos (decoder : Decoder) : 0 < decoder.step := by
  cases decoder <;> simp [step]

def views (decoder : Decoder) (address : UInt64) : List CodeView :=
  match decoder with
  | x64 => [⟨.x64, address⟩]
  | mips32 order => [⟨.mips32 order, address⟩]
  | arm32 order =>
    (if address.toNat % 4 = 0 then [⟨.arm order, address⟩] else []) ++
      [⟨.thumb order, address ||| 1⟩]

/-- What a view of the bytes at an address shows. -/
def look (d : Disassembler) (bytes : List UInt8) (address : UInt64) (view : CodeView) :
    Option NormalInstruction :=
  (d view.mode bytes address).bind view.mode.normalize?

/-- Records every view of the bytes at an address. -/
def decode (decoder : Decoder) (d : Disassembler) (bytes : List UInt8) (address : UInt64)
    (listing : Listing) : Listing :=
  (decoder.views address).foldl
    (fun listing view => listing.record view.recordAt (look d bytes address view)) listing

/-! ### Asking about one instruction -/

/-- The mode and the real address behind an address of record. -/
def locate (decoder : Decoder) (address : UInt64) : CodeMode × UInt64 :=
  match decoder with
  | x64 => (.x64, address)
  | mips32 order => (.mips32 order, address)
  | arm32 order =>
    if address.toNat % 2 = 1 then (.thumb order, address - 1) else (.arm order, address)

/-- The number of operands of the instruction recorded at an address, up to 255. -/
def operandCount? (decoder : Decoder) (d : Disassembler) (bytes : List UInt8) (address : UInt64) :
    Option UInt8 := do
  let (mode, address) := decoder.locate address
  let raw ← d mode bytes address
  if raw.operands.length < UInt8.size then some (UInt8.ofNat raw.operands.length) else none

/-- How the instruction at an address uses an operand, counted in the order of the library. Only
x64 code tells. -/
def operandAccess? (decoder : Decoder) (d : Disassembler) (bytes : List UInt8)
    (address : UInt64) (index : Nat) : Option OperandAccess :=
  match decoder with
  | x64 => do (← (← d .x64 bytes address).operands[index]?).access
  | _ => none

end Decoder

end BinaryFacts
