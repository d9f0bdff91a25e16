import BinaryFacts.Binary.Basic
import BinaryFacts.Json.Library

/-!
# Binaries as documents

Every part of a binary as a record of its fields. Code blocks and functions are maps whose keys are
addresses in decimal.
-/

namespace BinaryFacts

variable (library : JsonLibrary)

def FileFormat.toJson (format : FileFormat) : Json := library.ofName format.name

def FileFormat.ofJson? : Json → Option FileFormat := library.name? FileFormat.ofName?

def Isa.toJson (isa : Isa) : Json := library.ofName isa.name

def Isa.ofJson? : Json → Option Isa := library.name? Isa.ofName?

def ByteOrder.toJson (order : ByteOrder) : Json := library.ofName order.name

def ByteOrder.ofJson? : Json → Option ByteOrder := library.name? ByteOrder.ofName?

namespace SectionFlags

def toJson (flags : SectionFlags) : Json :=
  library.ofRecord [("readable", library.ofBool flags.readable),
    ("writable", library.ofBool flags.writable), ("executable", library.ofBool flags.executable),
    ("loaded", library.ofBool flags.loaded), ("initialized", library.ofBool flags.initialized)]

def ofJson? (document : Json) : Option SectionFlags := do
  let fields ← library.record?
    ["readable", "writable", "executable", "loaded", "initialized"] document
  return {
    readable := ← library.required? fields "readable" library.bool?
    writable := ← library.required? fields "writable" library.bool?
    executable := ← library.required? fields "executable" library.bool?
    loaded := ← library.required? fields "loaded" library.bool?
    initialized := ← library.required? fields "initialized" library.bool? }

end SectionFlags

namespace Section

def toJson (s : Section) : Json :=
  library.ofRecord [("name", library.ofString s.name), ("address", library.ofUInt64 s.address),
    ("size", library.ofUInt64 s.size), ("kind", library.ofString s.kind),
    ("align", library.ofUInt64 s.align), ("flags", s.flags.toJson library),
    ("bytes", library.ofOption (library.ofList library.ofUInt8) s.bytes)]

def ofJson? (document : Json) : Option Section := do
  let fields ← library.record?
    ["name", "address", "size", "kind", "align", "flags", "bytes"] document
  return {
    name := ← library.required? fields "name" library.string?
    address := ← library.required? fields "address" library.uint64?
    size := ← library.required? fields "size" library.uint64?
    kind := ← library.required? fields "kind" library.string?
    align := ← library.required? fields "align" library.uint64?
    flags := ← library.required? fields "flags" (SectionFlags.ofJson? library)
    bytes := ← library.optional? fields "bytes" (library.listOf? library.uint8?) }

end Section

namespace Symbol

def toJson (symbol : Symbol) : Json :=
  library.ofRecord [("name", library.ofString symbol.name),
    ("address", library.ofOption library.ofUInt64 symbol.address),
    ("size", library.ofUInt64 symbol.size), ("kind", library.ofString symbol.kind),
    ("binding", library.ofString symbol.binding),
    ("visibility", library.ofString symbol.visibility),
    ("section_index", library.ofUInt64 symbol.sectionIndex)]

def ofJson? (document : Json) : Option Symbol := do
  let fields ← library.record?
    ["name", "address", "size", "kind", "binding", "visibility", "section_index"] document
  return {
    name := ← library.required? fields "name" library.string?
    address := ← library.optional? fields "address" library.uint64?
    size := ← library.required? fields "size" library.uint64?
    kind := ← library.required? fields "kind" library.string?
    binding := ← library.required? fields "binding" library.string?
    visibility := ← library.required? fields "visibility" library.string?
    sectionIndex := ← library.required? fields "section_index" library.uint64? }

end Symbol

namespace DynamicEntry

def toJson (entry : DynamicEntry) : Json :=
  library.ofRecord [("tag", library.ofString entry.tag), ("value", library.ofUInt64 entry.value)]

def ofJson? (document : Json) : Option DynamicEntry := do
  let fields ← library.record? ["tag", "value"] document
  return {
    tag := ← library.required? fields "tag" library.string?
    value := ← library.required? fields "value" library.uint64? }

end DynamicEntry

namespace CodeBlock

def toJson (block : CodeBlock) : Json :=
  library.ofRecord [("address", library.ofUInt64 block.address),
    ("size", library.ofUInt64 block.size)]

def ofJson? (document : Json) : Option CodeBlock := do
  let fields ← library.record? ["address", "size"] document
  return {
    address := ← library.required? fields "address" library.uint64?
    size := ← library.required? fields "size" library.uint64? }

end CodeBlock

namespace FlowEdge

def toJson (edge : FlowEdge) : Json :=
  library.ofRecord [("from", library.ofUInt64 edge.source), ("to", library.ofUInt64 edge.target),
    ("kind", library.ofString edge.kind)]

def ofJson? (document : Json) : Option FlowEdge := do
  let fields ← library.record? ["from", "to", "kind"] document
  return {
    source := ← library.required? fields "from" library.uint64?
    target := ← library.required? fields "to" library.uint64?
    kind := ← library.required? fields "kind" library.string? }

end FlowEdge

namespace Function

def toJson (function : Function) : Json :=
  library.ofRecord [("entry", library.ofUInt64 function.entry),
    ("blocks", library.ofList library.ofUInt64 function.blocks)]

def ofJson? (document : Json) : Option Function := do
  let fields ← library.record? ["entry", "blocks"] document
  return {
    entry := ← library.required? fields "entry" library.uint64?
    blocks := ← library.required? fields "blocks" (library.listOf? library.uint64?) }

end Function

/-- A map from addresses, under the names that words have. -/
def addressMapToJson {ν : Type} (write : ν → Json) (m : OrderedMap UInt64 ν) : Json :=
  library.ofMap library.ofWordKey write m.entries

/-- The last of several values for one address stands. -/
def addressMapOfJson? {ν : Type} (read : Json → Option ν) (document : Json) :
    Option (OrderedMap UInt64 ν) :=
  (library.mapOf? library.wordKey? read document).map .ofList

namespace Binary

def toJson (binary : Binary) : Json :=
  library.ofRecord [("name", library.ofString binary.name),
    ("file_format", binary.format.toJson library), ("isa", binary.isa.toJson library),
    ("byte_order", binary.byteOrder.toJson library),
    ("preferred_address", library.ofUInt64 binary.preferredAddress),
    ("entry_point", library.ofOption library.ofUInt64 binary.entryPoint),
    ("binary_type", library.ofOption (library.ofList library.ofString) binary.types),
    ("sections", library.ofList (Section.toJson library) binary.sections),
    ("symbols", library.ofList (Symbol.toJson library) binary.symbols),
    ("dynamic_entries", library.ofList (DynamicEntry.toJson library) binary.dynamicEntries),
    ("code_blocks", addressMapToJson library (CodeBlock.toJson library) binary.codeBlocks),
    ("cfg_edges", library.ofList (FlowEdge.toJson library) binary.flowEdges),
    ("functions", addressMapToJson library (Function.toJson library) binary.functions)]

def ofJson? (document : Json) : Option Binary := do
  let fields ← library.record?
    ["name", "file_format", "isa", "byte_order", "preferred_address", "entry_point", "binary_type",
      "sections", "symbols", "dynamic_entries", "code_blocks", "cfg_edges", "functions"] document
  return {
    name := ← library.required? fields "name" library.string?
    format := ← library.required? fields "file_format" (FileFormat.ofJson? library)
    isa := ← library.required? fields "isa" (Isa.ofJson? library)
    byteOrder := ← library.required? fields "byte_order" (ByteOrder.ofJson? library)
    preferredAddress := ← library.required? fields "preferred_address" library.uint64?
    entryPoint := ← library.optional? fields "entry_point" library.uint64?
    types := ← library.optional? fields "binary_type" (library.listOf? library.string?)
    sections := ← library.required? fields "sections" (library.listOf? (Section.ofJson? library))
    symbols := ← library.required? fields "symbols" (library.listOf? (Symbol.ofJson? library))
    dynamicEntries := ← library.required? fields "dynamic_entries"
      (library.listOf? (DynamicEntry.ofJson? library))
    codeBlocks := ← library.required? fields "code_blocks"
      (addressMapOfJson? library (CodeBlock.ofJson? library))
    flowEdges := ← library.required? fields "cfg_edges" (library.listOf? (FlowEdge.ofJson? library))
    functions := ← library.required? fields "functions"
      (addressMapOfJson? library (Function.ofJson? library)) }

end Binary

end BinaryFacts
