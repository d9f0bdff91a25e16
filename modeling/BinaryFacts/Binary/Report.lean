import BinaryFacts.Word
import BinaryFacts.Binary.Basic

/-!
# Binaries from parsed containers

What a container parser reports about an executable image, and the binary that it describes.
-/

namespace BinaryFacts

structure ElfSection where
  name : Option String
  type : UInt32
  typeName : String
  flags : UInt64
  address : UInt64
  offset : UInt64
  size : UInt64
  align : UInt64
deriving Inhabited

structure ElfSymbol where
  name : Option String
  sectionIndex : UInt64
  value : UInt64
  size : UInt64
  type : String
  binding : String
  visibility : String
deriving Inhabited

structure ElfDynamic where
  tag : UInt64
  tagName : String
  value : UInt64
deriving Inhabited

structure ElfReport where
  machine : UInt16
  type : UInt16
  is64 : Bool
  littleEndian : Bool
  entry : UInt64
  /-- Type and virtual address of each segment. -/
  segments : List (UInt32 × UInt64)
  /-- Section headers, of which the first is the null entry. -/
  sections : List ElfSection
  symbols : List ElfSymbol
  dynamicSymbols : List ElfSymbol
  dynamic : Option (List ElfDynamic)
deriving Inhabited

structure PeSection where
  name : Option String
  characteristics : UInt32
  virtualSize : UInt32
  rawSize : UInt32
  virtualAddress : UInt32
  rawOffset : UInt32
deriving Inhabited

structure PeExport where
  name : Option String
  /-- The address relative to the image. -/
  offset : UInt64
deriving Inhabited

structure PeReport where
  machine : UInt16
  imageBase : UInt64
  entry : UInt64
  isLibrary : Bool
  sections : List PeSection
  exports : List PeExport
deriving Inhabited

inductive ContainerReport where
  | failure
  | elf (report : ElfReport)
  | pe (report : PeReport)
  | mach
  | archive
  | other
deriving Inhabited

inductive ContainerError where
  | parse
  | unsupported (container : String)
deriving DecidableEq

def ContainerError.message : ContainerError → String
  | parse => "failed to parse container"
  | unsupported container => "unsupported container: " ++ container

/-- Why a container gives no binary. -/
inductive ImageFailure where
  | rejected (error : ContainerError)
  /-- A sum of addresses does not fit in a word. No error is returned: the whole program stops. -/
  | overflow
deriving DecidableEq

/-- The text without a word that it may start with. -/
def stripLead (lead text : String) : String :=
  if lead.toList.isPrefixOf text.toList then String.ofList (text.toList.drop lead.length) else text

namespace ElfReport

def isa (report : ElfReport) : Isa :=
  match report.machine with
  | 3 => .ia32
  | 8 => if report.is64 then .mips64 else .mips32
  | 40 => .arm
  | 62 => .x64
  | 183 => .arm64
  | _ => .undefined

def typeLabel? (report : ElfReport) : Option String :=
  match report.type with
  | 1 => some "REL"
  | 2 => some "EXEC"
  | 3 => some "DYN"
  | _ => none

/-- The lowest address of a loadable segment. -/
def preferredAddress (report : ElfReport) : UInt64 :=
  let addresses := (report.segments.filter (·.1 == 1)).map (·.2)
  (addresses.min?).getD 0

end ElfReport

/-- A section without file contents has type 8. -/
def ElfSection.isZeroFill (header : ElfSection) : Bool := header.type == 8

def ElfSection.toSection (file : List UInt8) (header : ElfSection) : Section :=
  { name := header.name.getD ""
    address := header.address
    size := header.size
    kind := stripLead "SHT_" header.typeName
    align := header.align
    flags :=
      { readable := header.flags &&& 2 != 0
        writable := header.flags &&& 1 != 0
        executable := header.flags &&& 4 != 0
        loaded := header.flags &&& 2 != 0
        initialized := !header.isZeroFill }
    bytes :=
      if header.isZeroFill then none
      else fileSlice? file header.offset.toNat header.size.toNat }

/-- A symbol of section index 0 is defined elsewhere; one without a name is left out. -/
def ElfSymbol.toSymbol? (entry : ElfSymbol) : Option Symbol :=
  match entry.name with
  | none | some "" => none
  | some name => some
    { name
      address := if entry.sectionIndex == 0 then none else some entry.value
      size := entry.size
      kind := entry.type
      binding := entry.binding
      visibility := entry.visibility
      sectionIndex := entry.sectionIndex }

/-- An entry of tag 0 only ends the table. -/
def ElfDynamic.toEntry? (entry : ElfDynamic) : Option DynamicEntry :=
  if entry.tag == 0 then none
  else some { tag := stripLead "DT_" entry.tagName, value := entry.value }

namespace PeReport

def isa (report : PeReport) : Isa :=
  match report.machine with
  | 0x14c => .ia32
  | 0x8664 => .x64
  | 0x1c0 => .arm
  | 0xaa64 => .arm64
  | _ => .undefined

end PeReport

def PeSection.isZeroFill (header : PeSection) : Bool := header.characteristics &&& 0x80 != 0

/-- The size in memory, or in the file where none is given. -/
def PeSection.size (header : PeSection) : UInt32 :=
  if header.virtualSize == 0 then header.rawSize else header.virtualSize

/-- The section of a header that lies at an address. -/
def PeSection.sectionAt (file : List UInt8) (header : PeSection) (address : UInt64) : Section :=
  { name := header.name.getD ""
    address
    size := header.size.toUInt64
    kind := if header.isZeroFill then "NOBITS" else "PROGBITS"
    align := 1
    flags :=
      { readable := header.characteristics &&& 0x40000000 != 0
        writable := header.characteristics &&& 0x80000000 != 0
        executable := header.characteristics &&& 0x20000000 != 0
        loaded := true
        initialized := !header.isZeroFill }
    bytes :=
      if header.isZeroFill then none
      else fileSlice? file header.rawOffset.toNat (min header.rawSize.toNat header.size.toNat) }

/-- The symbol of a name that is exported at an address. -/
def Symbol.exported (name : String) (address : UInt64) : Symbol :=
  { name
    address := some address
    size := 0
    kind := "NOTYPE"
    binding := "GLOBAL"
    visibility := "DEFAULT"
    sectionIndex := 0 }

/-- The address at an offset from the base of an image. Nothing guards the sum but the checks that
are built into the program. Built without them, it would count on from zero. -/
def imageAddress (base offset : UInt64) : Except ImageFailure UInt64 :=
  match checkedSum? base offset with
  | some address => .ok address
  | none => .error .overflow

def PeSection.toSection (imageBase : UInt64) (file : List UInt8) (header : PeSection) :
    Except ImageFailure Section := do
  let address ← imageAddress imageBase header.virtualAddress.toUInt64
  return header.sectionAt file address

/-- An export without a name or at offset 0 is left out. -/
def PeExport.toSymbol? (imageBase : UInt64) (entry : PeExport) :
    Except ImageFailure (Option Symbol) :=
  match entry.name with
  | none | some "" => .ok none
  | some name =>
    if entry.offset == 0 then .ok none
    else return some (.exported name (← imageAddress imageBase entry.offset))

namespace Binary

def addSymbols (binary : Binary) (symbols : List Symbol) : Binary :=
  symbols.foldl addSymbol binary

def ofElf (name : String) (file : List UInt8) (report : ElfReport) : Binary :=
  let binary : Binary :=
    { name
      format := .elf
      isa := report.isa
      byteOrder := if report.littleEndian then .little else .big
      preferredAddress := report.preferredAddress
      entryPoint := if report.entry == 0 then none else some report.entry
      types := report.typeLabel?.map ([·])
      sections := (report.sections.drop 1).map (ElfSection.toSection file)
      dynamicEntries := (report.dynamic.getD []).filterMap ElfDynamic.toEntry? }
  binary.addSymbols ((report.symbols ++ report.dynamicSymbols).filterMap ElfSymbol.toSymbol?)

/-- The binary of an image, once its addresses are known. -/
def ofPeParts (name : String) (report : PeReport) (entry : UInt64) (sections : List Section)
    (symbols : List Symbol) : Binary :=
  let binary : Binary :=
    { name
      format := .pe
      isa := report.isa
      byteOrder := .little
      preferredAddress := report.imageBase
      entryPoint := some entry
      types := some [if report.isLibrary then "DLL" else "EXEC"]
      sections }
  binary.addSymbols symbols

/-- Addresses of an image are relative to its base. -/
def ofPe (name : String) (file : List UInt8) (report : PeReport) :
    Except ImageFailure Binary := do
  let entry ← imageAddress report.imageBase report.entry
  let sections ← report.sections.mapM (PeSection.toSection report.imageBase file)
  let symbols ← report.exports.filterMapM (PeExport.toSymbol? report.imageBase)
  return ofPeParts name report entry sections symbols

/-- The binary of a file, by what the parser reports on it. -/
def ofFile (name : String) (file : List UInt8) :
    ContainerReport → Except ImageFailure Binary
  | .failure => .error (.rejected .parse)
  | .elf report => .ok (ofElf name file report)
  | .pe report => ofPe name file report
  | .mach => .error (.rejected (.unsupported "Mach-O"))
  | .archive => .error (.rejected (.unsupported "archive"))
  | .other => .error (.rejected (.unsupported "unknown magic"))

end Binary

end BinaryFacts
