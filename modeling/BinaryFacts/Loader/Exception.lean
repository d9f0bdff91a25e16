import BinaryFacts.ExceptionFrame.Record
import BinaryFacts.Loader.Basic

/-!
# Loader of exception frames
-/

namespace BinaryFacts

/-- How the exception frames of a binary are laid out. A pointer has 8 bytes where the instruction
set is unknown. -/
def Binary.exceptionFrame (binary : Binary) (s : Section) : ExceptionFrame :=
  { address := s.address
    order := if binary.byteOrder = .big then .big else .little
    pointerSize := (binary.isa.pointerWidth?.map fun width => width.toNat / 8).getD 8 }

namespace Loader

def commonEntryRow? (frame : ExceptionFrame) : ExceptionFrame.Entry → Option Row
  | .common entry => some [.unsigned (frame.address + UInt64.ofNat entry.offset),
      .unsigned entry.frameEncoding.toUInt64, .unsigned entry.dataEncoding.toUInt64]
  | .frame .. => none

def frameEntryRow? : ExceptionFrame.Entry → Option Row
  | .common _ => none
  | .frame start limit => some [.unsigned start, .unsigned limit]

/-- The records of the section `.eh_frame`, if the binary has one with contents. -/
def exceptionFrames : Loader := fun binary store =>
  match binary.sectionNamed? ".eh_frame" with
  | none => store
  | some s => match s.bytes with
    | none => store
    | some bytes =>
      let frame := binary.exceptionFrame s
      let entries := frame.records bytes
      store
        |>.insert "cie_encoding" (entries.filterMap (commonEntryRow? frame))
        |>.insert "fde_addresses" (entries.filterMap frameEntryRow?)

end Loader

end BinaryFacts
