import BinaryFacts.Text.Upper
import BinaryFacts.Text.Numeral
import BinaryFacts.Binary.Json

/-!
# Target descriptors

What selects the loaders of a binary. Descriptors are ordered by format, instruction set, byte order
and pointer width, each in the order of its kinds.
-/

namespace BinaryFacts

structure TargetDescriptor where
  format : FileFormat
  isa : Isa
  byteOrder : ByteOrder
  /-- In bits; 0 where the instruction set is unknown. -/
  pointerWidth : UInt8
deriving DecidableEq, Inhabited

namespace TargetDescriptor

def display (d : TargetDescriptor) : String :=
  d.format.label ++ "/" ++ Text.upper d.isa.name ++ "/" ++ d.byteOrder.label ++ "/" ++
    Text.decimal d.pointerWidth.toNat

/-- The place in the order of descriptors. -/
def rank (d : TargetDescriptor) : Nat :=
  ((d.format.rank * 7 + d.isa.rank) * 3 + d.byteOrder.rank) * 256 + d.pointerWidth.toNat

theorem isa_rank_lt (isa : Isa) : isa.rank < 7 := by
  cases isa <;> decide

theorem byteOrder_rank_lt (order : ByteOrder) : order.rank < 3 := by
  cases order <;> decide

theorem format_rank_inj {a b : FileFormat} (h : a.rank = b.rank) : a = b := by
  revert h
  cases a <;> cases b <;> decide

theorem isa_rank_inj {a b : Isa} (h : a.rank = b.rank) : a = b := by
  revert h
  cases a <;> cases b <;> decide

theorem byteOrder_rank_inj {a b : ByteOrder} (h : a.rank = b.rank) : a = b := by
  revert h
  cases a <;> cases b <;> decide

theorem rank_inj {a b : TargetDescriptor} (h : a.rank = b.rank) : a = b := by
  obtain ⟨format, isa, order, width⟩ := a
  obtain ⟨format', isa', order', width'⟩ := b
  simp only [rank] at h
  have := isa_rank_lt isa
  have := isa_rank_lt isa'
  have := byteOrder_rank_lt order
  have := byteOrder_rank_lt order'
  have := width.toNat_lt
  have := width'.toNat_lt
  have hformat : format = format' := format_rank_inj (by omega)
  have hisa : isa = isa' := isa_rank_inj (by omega)
  have horder : order = order' := byteOrder_rank_inj (by omega)
  have hwidth : width = width' := UInt8.toNat_inj.mp (by omega)
  rw [hformat, hisa, horder, hwidth]

instance : OrderedKey TargetDescriptor := .ofRank rank rank_inj

def toJson (library : JsonLibrary) (d : TargetDescriptor) : Json :=
  library.ofRecord [("format", d.format.toJson library), ("isa", d.isa.toJson library),
    ("byte_order", d.byteOrder.toJson library), ("pointer_width", library.ofUInt8 d.pointerWidth)]

def ofJson? (library : JsonLibrary) (document : Json) : Option TargetDescriptor := do
  let fields ← library.record? ["format", "isa", "byte_order", "pointer_width"] document
  return {
    format := ← library.required? fields "format" (FileFormat.ofJson? library)
    isa := ← library.required? fields "isa" (Isa.ofJson? library)
    byteOrder := ← library.required? fields "byte_order" (ByteOrder.ofJson? library)
    pointerWidth := ← library.required? fields "pointer_width" library.uint8? }

end TargetDescriptor

def Binary.descriptor (binary : Binary) : TargetDescriptor :=
  { format := binary.format
    isa := binary.isa
    byteOrder := binary.byteOrder
    pointerWidth := binary.isa.pointerWidth?.getD 0 }

end BinaryFacts
