/-!
# Kinds of binaries

File formats, instruction sets and byte orders. Each has a name, by which it is read and written,
and a label, by which rule programs know it.
-/

namespace BinaryFacts

inductive FileFormat where
  | coff | elf | pe | idaProDb32 | idaProDb64 | xcoff | machO | raw | undefined
deriving DecidableEq, Inhabited

namespace FileFormat

def all : List FileFormat :=
  [coff, elf, pe, idaProDb32, idaProDb64, xcoff, machO, raw, undefined]

def name : FileFormat → String
  | coff => "Coff"
  | elf => "Elf"
  | pe => "Pe"
  | idaProDb32 => "IdaProDb32"
  | idaProDb64 => "IdaProDb64"
  | xcoff => "Xcoff"
  | machO => "MachO"
  | raw => "Raw"
  | undefined => "Undefined"

def ofName? (name : String) : Option FileFormat := all.find? (·.name == name)

def label : FileFormat → String
  | coff => "COFF"
  | elf => "ELF"
  | pe => "PE"
  | idaProDb32 => "IdaProDb32"
  | idaProDb64 => "IdaProDb64"
  | xcoff => "XCOFF"
  | machO => "MACHO"
  | raw => "RAW"
  | undefined => "Undefined"

/-- The place in the order of formats. -/
def rank (format : FileFormat) : Nat := all.idxOf format

theorem ofName?_name (format : FileFormat) : ofName? format.name = some format := by
  cases format <;> decide

end FileFormat

inductive Isa where
  | ia32 | x64 | arm | arm64 | mips32 | mips64 | undefined
deriving DecidableEq, Inhabited

namespace Isa

def all : List Isa := [ia32, x64, arm, arm64, mips32, mips64, undefined]

def name : Isa → String
  | ia32 => "Ia32"
  | x64 => "X64"
  | arm => "Arm"
  | arm64 => "Arm64"
  | mips32 => "Mips32"
  | mips64 => "Mips64"
  | undefined => "Undefined"

def ofName? (name : String) : Option Isa := all.find? (·.name == name)

def label : Isa → String
  | ia32 => "X86"
  | x64 => "X64"
  | arm => "ARM"
  | arm64 => "ARM64"
  | mips32 | mips64 => "MIPS"
  | undefined => "Undefined"

def rank (isa : Isa) : Nat := all.idxOf isa

/-- The width of a pointer in bits, where the instruction set is known. -/
def pointerWidth? : Isa → Option UInt8
  | ia32 | arm | mips32 => some 32
  | x64 | arm64 | mips64 => some 64
  | undefined => none

/-- The spellings that a user may write, in letters of either case. -/
def spellings : List (String × Isa) :=
  [("x86", ia32), ("i386", ia32), ("ia32", ia32), ("x64", x64), ("x86_64", x64), ("amd64", x64),
    ("arm", arm), ("arm32", arm), ("armv7", arm), ("arm64", arm64), ("aarch64", arm64),
    ("mips", mips32), ("mips32", mips32), ("mips64", mips64)]

/-- Reads a spelling. The case of ASCII letters does not matter. -/
def ofSpelling? (text : String) : Option Isa := spellings.lookup text.toLower

theorem ofName?_name (isa : Isa) : ofName? isa.name = some isa := by
  cases isa <;> decide

end Isa

inductive ByteOrder where
  | big | little | undefined
deriving DecidableEq, Inhabited

namespace ByteOrder

def all : List ByteOrder := [big, little, undefined]

def name : ByteOrder → String
  | big => "Big"
  | little => "Little"
  | undefined => "Undefined"

def ofName? (name : String) : Option ByteOrder := all.find? (·.name == name)

def label : ByteOrder → String
  | big => "BE"
  | little => "LE"
  | undefined => "Undefined"

def rank (order : ByteOrder) : Nat := all.idxOf order

theorem ofName?_name (order : ByteOrder) : ofName? order.name = some order := by
  cases order <;> decide

end ByteOrder

end BinaryFacts
