import BinaryFacts.Instruction.Listing
import BinaryFacts.Json.Library

/-!
# Instructions as documents
-/

namespace BinaryFacts

variable (library : JsonLibrary)

namespace Operand

def toJson : Operand → Json
  | register name => library.ofVariant "Register" (library.ofString name)
  | immediate value => library.ofVariant "Immediate" (library.ofInt64 value)
  | indirect segment base index scale displacement size =>
    library.ofVariant "Indirect" (library.ofRecord [("segment", library.ofString segment),
      ("base", library.ofString base), ("index", library.ofString index),
      ("scale", library.ofInt64 scale), ("displacement", library.ofInt64 displacement),
      ("size", library.ofUInt64 size)])

def indirectOfJson? (document : Json) : Option Operand := do
  let fields ← library.content?
    ["segment", "base", "index", "scale", "displacement", "size"] document
  return indirect (← library.required? fields "segment" library.string?)
    (← library.required? fields "base" library.string?)
    (← library.required? fields "index" library.string?)
    (← library.required? fields "scale" library.int64?)
    (← library.required? fields "displacement" library.int64?)
    (← library.required? fields "size" library.uint64?)

def ofJson? : Json → Option Operand :=
  library.variant? fun name content => match name with
    | "Register" => (library.string? content).map register
    | "Immediate" => (library.int64? content).map immediate
    | "Indirect" => indirectOfJson? library content
    | _ => none

end Operand

namespace Instruction

def toJson (instruction : Instruction) : Json :=
  library.ofRecord [("address", library.ofUInt64 instruction.address),
    ("size", library.ofUInt64 instruction.size), ("prefix", library.ofString instruction.modifier),
    ("mnemonic", library.ofString instruction.mnemonic),
    ("operands", library.ofList library.ofUInt64 instruction.operands),
    ("code1", library.ofUInt64 instruction.code1), ("code2", library.ofUInt64 instruction.code2)]

def ofJson? (document : Json) : Option Instruction := do
  let fields ← library.record?
    ["address", "size", "prefix", "mnemonic", "operands", "code1", "code2"] document
  return {
    address := ← library.required? fields "address" library.uint64?
    size := ← library.required? fields "size" library.uint64?
    modifier := ← library.required? fields "prefix" library.string?
    mnemonic := ← library.required? fields "mnemonic" library.string?
    operands := ← library.required? fields "operands" (library.listOf? library.uint64?)
    code1 := ← library.required? fields "code1" library.uint64?
    code2 := ← library.required? fields "code2" library.uint64? }

end Instruction

end BinaryFacts
