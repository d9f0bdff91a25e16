import BinaryFacts.Word
import BinaryFacts.Loader.Basic

/-!
# Loader of data

The bytes of data sections, and the pointers in them: words at any offset that are addresses in a
loaded section.
-/

namespace BinaryFacts

inductive PointerSize where
  | dword
  | qword
deriving DecidableEq, Inhabited

def PointerSize.bytes : PointerSize → Nat
  | dword => 4
  | qword => 8

/-- The runs of `width` neighbours in a list, in order. -/
def windows {α : Type} (width : Nat) : List α → List (List α)
  | [] => []
  | first :: rest =>
    let window := (first :: rest).take width
    if window.length = width then window :: windows width rest else []

/-- A section of initial data that is loaded and holds no code. -/
def Section.isData (s : Section) : Bool :=
  !s.flags.executable && s.flags.loaded && s.flags.initialized

/-- The bytes of a data section, none elsewhere. -/
def Section.dataBytes (s : Section) : List UInt8 := if s.isData then s.bytes.getD [] else []

namespace Loader

def dataByteRows (s : Section) : List Row :=
  s.dataBytes.mapIdx fun offset byte =>
    [.unsigned (s.address + UInt64.ofNat offset), .unsigned byte.toUInt64]

/-- Whether a loaded section of the binary contains an address. -/
def isLoadedAddress (binary : Binary) (address : UInt64) : Bool :=
  binary.sections.any fun s => s.flags.loaded && s.contains address

def pointerRows (pointer : PointerSize) (order : Endian) (binary : Binary) (s : Section) :
    List Row :=
  let words := (windows pointer.bytes s.dataBytes).mapIdx fun offset window =>
    (s.address + UInt64.ofNat offset, order.value window)
  (words.filter fun word => isLoadedAddress binary word.2).map fun (address, value) =>
    [.unsigned address, .unsigned value]

def data (pointer : PointerSize) (order : Endian) : Loader := fun binary store =>
  store
    |>.insert "data_byte" (binary.sections.flatMap dataByteRows)
    |>.insert "address_in_data" (binary.sections.flatMap (pointerRows pointer order binary))

end Loader

end BinaryFacts
