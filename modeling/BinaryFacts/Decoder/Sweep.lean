import BinaryFacts.Binary.Basic
import BinaryFacts.Decoder.Basic

/-!
# Sweeping a binary

All candidate addresses of all executable sections, decoded in order of sections and offsets.
-/

namespace BinaryFacts

/-- The addresses `step` bytes apart in a section, as far as the address space goes, each with the
bytes from there on. -/
def Section.candidates (s : Section) (step : Nat) : List (UInt64 × List UInt8) :=
  match s.bytes with
  | none => []
  | some bytes =>
    (List.range ((bytes.length + step - 1) / step)).filterMap fun k =>
      let offset := k * step
      if s.address.toNat + offset < UInt64.size then
        some (s.address + UInt64.ofNat offset, bytes.drop offset)
      else none

namespace Binary

def candidates (binary : Binary) (step : Nat) : List (UInt64 × List UInt8) :=
  (binary.sections.filter (·.flags.executable)).flatMap (·.candidates step)

/-- The listing of a binary. -/
def sweep (binary : Binary) (decoder : Decoder) (d : Disassembler) : Listing :=
  (binary.candidates decoder.step).foldl
    (fun listing (address, bytes) => decoder.decode d bytes address listing) .empty

end Binary

end BinaryFacts
