import BinaryFacts.Decoder.Sweep
import BinaryFacts.Loader.Basic

/-!
# Loaders of headers and instructions

The facts that any container gives: scalars, sections, the starts of executable sections, and the
instructions that a decoder finds.
-/

namespace BinaryFacts

namespace Loader

/-- One row each for type, format, instruction set, base address, entry point and byte order. -/
def header : Loader := fun binary store =>
  store
    |>.insertRow "binary_type" [.symbol binary.typeLabel]
    |>.insertRow "binary_format" [.symbol binary.format.label]
    |>.insertRow "binary_isa" [.symbol binary.isa.label]
    |>.insertRow "base_address" [.unsigned binary.preferredAddress]
    |>.insertRow "entry_point" [.unsigned (binary.entryPoint.getD 0)]
    |>.insertRow "endianness" [.symbol binary.byteOrder.label]

def sectionRow (s : Section) : Row :=
  [.symbol s.name, .unsigned s.size, .unsigned s.address, .symbol s.kind, .unsigned s.align]

/-- The names of the flags that are set. -/
def propertyNames (flags : SectionFlags) : List String :=
  ([("Readable", flags.readable), ("Writable", flags.writable), ("Executable", flags.executable),
    ("Loaded", flags.loaded), ("Initialized", flags.initialized)].filter (·.2)).map (·.1)

def propertyRows (s : Section) : List Row :=
  (propertyNames s.flags).map fun property => [.symbol s.name, .symbol property]

def sections : Loader := fun binary store =>
  store
    |>.insert "section" (binary.sections.map sectionRow)
    |>.insert "section_property" (binary.sections.flatMap propertyRows)

/-- The starts of executable sections, where code may begin if no header says so. -/
def rawEntry : Loader := fun binary store =>
  store.insert "raw_entry"
    ((binary.sections.filter (·.flags.executable)).map fun s => [.unsigned s.address])

def instructions (decoder : Decoder) (d : Disassembler) : Loader := fun binary store =>
  (binary.sweep decoder d).insertInto store

end Loader

end BinaryFacts
