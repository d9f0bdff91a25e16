import BinaryFacts.OrderedMap
import BinaryFacts.Binary.Kind

/-!
# Binaries

A binary as its container describes it: sections, symbols and dynamic entries, together with the
graph of code blocks, edges and functions that analysis adds.
-/

namespace BinaryFacts

structure SectionFlags where
  readable : Bool := false
  writable : Bool := false
  executable : Bool := false
  loaded : Bool := false
  initialized : Bool := false
deriving DecidableEq, Inhabited

structure Section where
  name : String
  address : UInt64
  size : UInt64
  /-- What the container calls the section's type, such as `PROGBITS`. -/
  kind : String
  align : UInt64
  flags : SectionFlags
  /-- The initial contents, none for a section that starts as zeros. -/
  bytes : Option (List UInt8)
deriving DecidableEq, Inhabited

namespace Section

/-- Whether an address lies in the section, which may reach past the top of the address space. -/
def contains (s : Section) (address : UInt64) : Bool :=
  s.address.toNat ≤ address.toNat && address.toNat < s.address.toNat + s.size.toNat

/-- The address after the section, or the last address where there is none after it. -/
def limit (s : Section) : UInt64 :=
  UInt64.ofNat (min (s.address.toNat + s.size.toNat) (UInt64.size - 1))

end Section

structure Symbol where
  name : String
  /-- None for a symbol that is defined elsewhere. -/
  address : Option UInt64
  size : UInt64
  kind : String
  binding : String
  visibility : String
  sectionIndex : UInt64
deriving DecidableEq, Inhabited

/-- A global function at a known address. -/
def Symbol.function (name : String) (address : UInt64) : Symbol :=
  { name, address := some address, size := 0, kind := "FUNC", binding := "GLOBAL",
    visibility := "DEFAULT", sectionIndex := 0 }

structure DynamicEntry where
  /-- The tag without its leading `DT_`. -/
  tag : String
  value : UInt64
deriving DecidableEq, Inhabited

structure CodeBlock where
  address : UInt64
  size : UInt64
deriving DecidableEq, Inhabited

structure FlowEdge where
  source : UInt64
  target : UInt64
  /-- How control passes: `fallthrough`, `branch`, `call` and so on. -/
  kind : String
deriving DecidableEq, Inhabited

structure Function where
  entry : UInt64
  blocks : List UInt64 := []
deriving DecidableEq, Inhabited

structure Binary where
  name : String
  format : FileFormat
  isa : Isa
  byteOrder : ByteOrder
  preferredAddress : UInt64 := 0
  entryPoint : Option UInt64 := none
  /-- What the container says the binary is for, none where it says nothing. -/
  types : Option (List String) := none
  sections : List Section := []
  symbols : List Symbol := []
  dynamicEntries : List DynamicEntry := []
  codeBlocks : OrderedMap UInt64 CodeBlock := .empty
  flowEdges : List FlowEdge := []
  functions : OrderedMap UInt64 Function := .empty
deriving DecidableEq, Inhabited

namespace Binary

/-- Headerless machine code: one executable section that starts at `base`. -/
def raw (bytes : List UInt8) (isa : Isa) (byteOrder : ByteOrder) (base : UInt64) : Binary :=
  { name := "raw"
    format := .raw
    isa
    byteOrder
    preferredAddress := base
    sections := [{
      name := ".text"
      address := base
      size := UInt64.ofNat bytes.length
      kind := "PROGBITS"
      align := 1
      flags := { readable := true, executable := true, loaded := true, initialized := true }
      bytes := some bytes }] }

def withEntryPoint (binary : Binary) (address : UInt64) : Binary :=
  { binary with entryPoint := some address }

/-- What rule programs are told about the type: `EXEC` where the container has no say, and
`Undefined` where it names no type. -/
def typeLabel (binary : Binary) : String :=
  match binary.types with
  | none => "EXEC"
  | some types => types.headD "Undefined"

/-! ### Looking up -/

def sectionNamed? (binary : Binary) (name : String) : Option Section :=
  binary.sections.find? (·.name == name)

def sectionContaining? (binary : Binary) (address : UInt64) : Option Section :=
  binary.sections.find? (·.contains address)

/-- At most `count` initialized bytes from an address on, up to the end of the first section that
contains it. -/
def bytesAt? (binary : Binary) (address : UInt64) (count : Nat) : Option (List UInt8) := do
  let s ← binary.sectionContaining? address
  let bytes ← s.bytes
  let start := address.toNat - s.address.toNat
  if start < bytes.length then some ((bytes.drop start).take count) else none

def symbolAt? (binary : Binary) (address : UInt64) : Option Symbol :=
  binary.symbols.find? (·.address == some address)

/-! ### Changing the graph -/

/-- Puts a code block at its address in place of one that is there. -/
def addCodeBlock (binary : Binary) (address size : UInt64) : Binary :=
  { binary with codeBlocks := binary.codeBlocks.insert address { address, size } }

/-- Adds an edge unless the same edge is there. -/
def addFlowEdge (binary : Binary) (edge : FlowEdge) : Binary :=
  if edge ∈ binary.flowEdges then binary
  else { binary with flowEdges := binary.flowEdges ++ [edge] }

def isFallthroughFrom (block : UInt64) (edge : FlowEdge) : Bool :=
  edge.source == block && edge.kind == "fallthrough"

/-- Removes the edges by which control falls through out of `block`, and counts them. -/
def cutFallthrough (binary : Binary) (block : UInt64) : Nat × Binary :=
  let kept := binary.flowEdges.filter (!isFallthroughFrom block ·)
  (binary.flowEdges.length - kept.length, { binary with flowEdges := kept })

/-- Adds a symbol unless one of its name is at its address. -/
def addSymbol (binary : Binary) (symbol : Symbol) : Binary :=
  if binary.symbols.any (fun s => s.name == symbol.name && s.address == symbol.address) then binary
  else { binary with symbols := binary.symbols ++ [symbol] }

/-- Changes the function at `entry`, which starts without blocks if it is new. -/
def alterFunction (binary : Binary) (entry : UInt64) (f : Function → Function) : Binary :=
  { binary with functions := binary.functions.alter entry { entry } f }

def addFunction (binary : Binary) (entry : UInt64) : Binary := binary.alterFunction entry id

/-- Lists a block in the function at `entry`, once. -/
def assignBlock (binary : Binary) (entry block : UInt64) : Binary :=
  binary.alterFunction entry fun function =>
    if block ∈ function.blocks then function
    else { function with blocks := function.blocks ++ [block] }

end Binary

end BinaryFacts
