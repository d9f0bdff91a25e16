import BinaryFacts.ExceptionFrame.Pointer
import BinaryFacts.Proofs.DigitLoops

/-!
# Writing pointers

What the readers of an exception frame take back, field by field. A pointer is written in one of
nine formats, absolute or relative to its own field.
-/

namespace BinaryFacts.ExceptionFrame

variable (frame : ExceptionFrame)

lemma reads_unsigned (offset size value : Nat) :
    (frame.unsigned size).Reads offset (frame.order.bytes size value)
      (UInt64.ofNat (value % 256 ^ size)) := by
  have h := Reader.reads_take offset (frame.order.bytes size value)
  rw [Endian.length_bytes] at h
  rw [← Endian.value_bytes frame.order]
  exact h.bind_pure _

inductive PointerFormat where
  | native
  | uleb128
  | udata2
  | udata4
  | udata8
  | sleb128
  | sdata2
  | sdata4
  | sdata8
deriving DecidableEq

namespace PointerFormat

def code : PointerFormat → UInt8
  | native => 0x0
  | uleb128 => 0x1
  | udata2 => 0x2
  | udata4 => 0x3
  | udata8 => 0x4
  | sleb128 => 0x9
  | sdata2 => 0xa
  | sdata4 => 0xb
  | sdata8 => 0xc

def isSigned : PointerFormat → Bool
  | sleb128 | sdata2 | sdata4 | sdata8 => true
  | _ => false

/-- The size of the field in bytes, none for a LEB128 number. -/
def wordSize? : PointerFormat → Option Nat
  | native => some frame.pointerSize
  | uleb128 | sleb128 => none
  | udata2 | sdata2 => some 2
  | udata4 | sdata4 => some 4
  | udata8 | sdata8 => some 8

/-- How many values a field has room for; a LEB128 number has `more` digits and a last one. -/
def range (more : Nat) (format : PointerFormat) : Nat :=
  match format.wordSize? frame with
  | some size => 256 ^ size
  | none => 128 ^ (more + 1)

/-- Whether a value lies in the range of its field. The bits of a LEB128 number are counted in a
word of 32 bits, so that it may not have any number of digits. -/
def Fits (more : Nat) (value : UInt64) (format : PointerFormat) : Prop :=
  (format.wordSize? frame = none → 7 * (more + 1) < 2 ^ 32) ∧
    if format.isSigned then FitsSigned (format.range frame more) value.toInt64.toInt
    else value.toNat < format.range frame more

instance (more : Nat) (value : UInt64) (format : PointerFormat) :
    Decidable (format.Fits frame more value) :=
  inferInstanceAs (Decidable (_ ∧
    if format.isSigned then FitsSigned (format.range frame more) _ else _))

def bytes (more : Nat) (value : UInt64) (format : PointerFormat) : List UInt8 :=
  match format.wordSize? frame with
  | some size => frame.order.bytes size value.toNat
  | none =>
    if format.isSigned then Leb128.signedDigits more value.toInt64.toInt
    else Leb128.digits more value.toNat

end PointerFormat

lemma reads_word {size : Nat} {value : UInt64} (h : value.toNat < 256 ^ size) (offset : Nat) :
    (frame.unsigned size).Reads offset (frame.order.bytes size value.toNat) value := by
  have hread := frame.reads_unsigned offset size value.toNat
  rwa [Nat.mod_eq_of_lt h, UInt64.ofNat_toNat] at hread

lemma reads_signedWord {size : Nat} (hsize : size = 2 ∨ size = 4 ∨ size = 8) {value : UInt64}
    (h : FitsSigned (256 ^ size) value.toInt64.toInt) (offset : Nat) :
    (frame.signed size).Reads offset (frame.order.bytes size value.toNat) value := by
  have hread := (frame.reads_unsigned offset size value.toNat).bind_pure (signExtend size)
  rwa [signExtend_ofNat hsize h] at hread

/-- A field that has room for its value is read back by any encoding of its format. -/
lemma reads_field {encoding : UInt8} {format : PointerFormat}
    (hcode : encoding.toNat % 16 = format.code.toNat) {more : Nat} {value : UInt64}
    (h : format.Fits frame more value) (offset : Nat) :
    (frame.field encoding).Reads offset (format.bytes frame more value) value := by
  obtain ⟨hcount, h⟩ := h
  unfold field
  rw [hcode]
  cases format with
  | native => exact frame.reads_word h offset
  | uleb128 =>
    have hread := Leb128.reads_unsigned (hcount rfl) offset h
    rwa [UInt64.ofNat_toNat] at hread
  | udata2 => exact frame.reads_word h offset
  | udata4 => exact frame.reads_word h offset
  | udata8 => exact frame.reads_word h offset
  | sleb128 =>
    have hread := (Leb128.reads_signed (hcount rfl) offset h).bind_pure Int64.toUInt64
    rwa [Int64.ofInt_toInt, UInt64.toUInt64_toInt64] at hread
  | sdata2 => exact frame.reads_signedWord (by decide) h offset
  | sdata4 => exact frame.reads_signedWord (by decide) h offset
  | sdata8 => exact frame.reads_word value.toNat_lt offset

structure PointerEncoding where
  format : PointerFormat
  relative : Bool
  indirect : Bool
deriving DecidableEq

namespace PointerEncoding

variable (encoding : PointerEncoding)

def byte : UInt8 :=
  (if encoding.indirect then 0x80 else 0) + (if encoding.relative then 0x10 else 0) +
    encoding.format.code

/-- What a pointer in a field at a place is relative to. -/
def base (position : Nat) : UInt64 :=
  if encoding.relative then frame.address + UInt64.ofNat position else 0

def plain : PointerEncoding := ⟨encoding.format, false, false⟩

def Fits (position more : Nat) (target : UInt64) : Prop :=
  encoding.format.Fits frame more (target - encoding.base frame position)

instance (position more : Nat) (target : UInt64) :
    Decidable (encoding.Fits frame position more target) :=
  inferInstanceAs (Decidable (encoding.format.Fits frame more _))

def bytes (position more : Nat) (target : UInt64) : List UInt8 :=
  encoding.format.bytes frame more (target - encoding.base frame position)

lemma byte_ne_omitted : encoding.byte ≠ omitted := by
  obtain ⟨format, relative, indirect⟩ := encoding
  cases format <;> cases relative <;> cases indirect <;> decide

lemma byte_format : encoding.byte.toNat % 16 = encoding.format.code.toNat := by
  obtain ⟨format, relative, indirect⟩ := encoding
  cases format <;> cases relative <;> cases indirect <;> rfl

lemma byte_application :
    encoding.byte.toNat / 16 % 8 = if encoding.relative then 1 else 0 := by
  obtain ⟨format, relative, indirect⟩ := encoding
  cases format <;> cases relative <;> cases indirect <;> rfl

lemma byte_and_low : encoding.byte &&& 0x0f = encoding.plain.byte := by
  obtain ⟨format, relative, indirect⟩ := encoding
  cases format <;> cases relative <;> cases indirect <;> rfl

end PointerEncoding

/-- The value of a field is read back, added to what the pointer is relative to. -/
lemma reads_pointer (encoding : PointerEncoding) {more : Nat} {value : UInt64}
    (h : encoding.format.Fits frame more value) (offset : Nat) :
    (frame.pointer encoding.byte).Reads offset (encoding.format.bytes frame more value)
      (encoding.base frame offset + value) := by
  intro rest
  unfold pointer
  rw [if_neg encoding.byte_ne_omitted]
  simp only [StateT.run_bind, StateT.run_get, Option.pure_def, Option.bind_eq_bind,
    Option.bind_some, encoding.byte_application]
  rw [frame.reads_field encoding.byte_format h offset rest, Option.bind_some]
  unfold PointerEncoding.base
  cases encoding.relative with
  | false =>
    show some (value, _) = some (0 + value, _)
    rw [UInt64.zero_add]
  | true => rfl

lemma reads_pointerTo {encoding : PointerEncoding} {offset more : Nat} {target : UInt64}
    (h : encoding.Fits frame offset more target) :
    (frame.pointer encoding.byte).Reads offset (encoding.bytes frame offset more target)
      target := by
  have hread := frame.reads_pointer encoding h offset
  rwa [UInt64.add_comm, UInt64.sub_add_cancel] at hread

lemma reads_number {encoding : PointerEncoding} {more : Nat} {value : UInt64}
    (h : encoding.format.Fits frame more value) (offset : Nat) :
    (frame.pointer (encoding.byte &&& 0x0f)).Reads offset (encoding.format.bytes frame more value)
      value := by
  -- the low half of the encoding is the encoding of an absolute number
  have hread : (frame.pointer encoding.plain.byte).Reads offset
      (encoding.format.bytes frame more value) (0 + value) :=
    frame.reads_pointer encoding.plain h offset
  rwa [UInt64.zero_add, ← encoding.byte_and_low] at hread

end BinaryFacts.ExceptionFrame
