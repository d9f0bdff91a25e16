import BinaryFacts.Loader.Data
import BinaryFacts.Loader.Exception
import BinaryFacts.Loader.Header
import BinaryFacts.Loader.Symbol
import BinaryFacts.Target.Descriptor

/-!
# Targets

The loaders and the rule program of each supported target. A registry keeps one target for each
descriptor, in descriptor order.
-/

namespace BinaryFacts

/-- The loaders that only some containers need. -/
inductive ContainerLoaders where
  | elf
  | raw
deriving DecidableEq, Inhabited

structure TargetSpec where
  descriptor : TargetDescriptor
  program : String
  decoder : Decoder
  pointer : PointerSize
  dataOrder : Endian
  container : ContainerLoaders
deriving DecidableEq, Inhabited

namespace TargetSpec

def containerLoaders (spec : TargetSpec) : List Loader :=
  match spec.container with
  | .elf => [Loader.dynamicEntries, Loader.symbols, Loader.exceptionFrames]
  | .raw => [Loader.rawEntry]

/-- The target's loaders in order: headers and sections come first. The disassembling library is at
hand for every target, so that assembling never fails. -/
def assemble (spec : TargetSpec) (d : Disassembler) : CompositeLoader :=
  { name := spec.program
    loaders :=
      [Loader.header, Loader.sections, Loader.instructions spec.decoder d,
        Loader.data spec.pointer spec.dataOrder] ++ spec.containerLoaders }

/-- A target whose pointers, data order and container loaders follow from its kinds. -/
def standard (format : FileFormat) (isa : Isa) (byteOrder : ByteOrder) (program : String)
    (decoder : Decoder) : TargetSpec :=
  let wide := isa = .x64 ∨ isa = .arm64 ∨ isa = .mips64
  { descriptor := ⟨format, isa, byteOrder, if wide then 64 else 32⟩
    program
    decoder
    pointer := if wide then .qword else .dword
    dataOrder := if byteOrder = .big then .big else .little
    container := if format = .raw then .raw else .elf }

/-- The built-in targets. -/
def builtin : List TargetSpec :=
  [standard .elf .mips32 .big "disasm_mips32" (.mips32 .big),
    standard .elf .mips32 .little "disasm_mips32" (.mips32 .little),
    standard .elf .arm .little "disasm_arm32" (.arm32 .little),
    standard .elf .arm .big "disasm_arm32" (.arm32 .big),
    standard .elf .x64 .little "disasm_x64" .x64,
    standard .raw .mips32 .big "disasm_mips32" (.mips32 .big),
    standard .raw .mips32 .little "disasm_mips32" (.mips32 .little),
    standard .raw .arm .little "disasm_arm32" (.arm32 .little),
    standard .raw .x64 .little "disasm_x64" .x64]

end TargetSpec

/-- Why a descriptor has no loaders. A disassembling library that cannot be opened is not
modelled. -/
inductive TargetError where
  | unsupported (descriptor : TargetDescriptor)
deriving DecidableEq

def TargetError.message : TargetError → String
  | unsupported descriptor => "unsupported target " ++ descriptor.display

structure TargetRegistry where
  targets : OrderedMap TargetDescriptor TargetSpec := .empty

namespace TargetRegistry

def empty : TargetRegistry := {}

/-- Puts a target in place of one with the same descriptor. -/
def register (registry : TargetRegistry) (spec : TargetSpec) : TargetRegistry :=
  { targets := registry.targets.insert spec.descriptor spec }

def ofList (specs : List TargetSpec) : TargetRegistry := specs.foldl register empty

/-- The registry of the built-in targets. -/
def builtin : TargetRegistry := ofList TargetSpec.builtin

def get? (registry : TargetRegistry) (descriptor : TargetDescriptor) : Option TargetSpec :=
  registry.targets.get? descriptor

def specs (registry : TargetRegistry) : List TargetSpec := registry.targets.values

def size (registry : TargetRegistry) : Nat := registry.targets.size

/-- The loaders for a descriptor. -/
def pipeline (registry : TargetRegistry) (d : Disassembler) (descriptor : TargetDescriptor) :
    Except TargetError CompositeLoader :=
  match registry.get? descriptor with
  | none => .error (.unsupported descriptor)
  | some spec => .ok (spec.assemble d)

/-- The rule programs of the targets, in order and each once. -/
def programs (registry : TargetRegistry) : List String :=
  (OrderedMap.ofList (registry.specs.map fun spec => (spec.program, ()))).keys

end TargetRegistry

end BinaryFacts
