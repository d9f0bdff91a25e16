import BinaryFacts.Proofs.DataLookup
import BinaryFacts.Proofs.GrowingSections
import BinaryFacts.Proofs.PointerFields

/-!
# Exception frames of 32-bit targets

The ranges of code are summed in words of 64 bits, also where pointers have four bytes. So an address
is one of the target just if its exact sum lies below `2 ^ 32`: a field that reaches backwards through
the top of the 32-bit address space gives an address above it, and a negative address one near the
top of the 64-bit address space.
-/

namespace BinaryFacts.ExceptionFrame

/-! ### Words and exact sums -/

/-- How a word stands for the exact value of a sum. Only in words of 64 bits it may be cut off. -/
structure StandsFor (exact : Int) (word : UInt64) : Prop where
  wrapped : (word.toNat : Int) = exact % 2 ^ 64
  narrow_iff : word.toNat < 2 ^ 32 ↔ 0 ≤ exact ∧ exact < 2 ^ 32
  pattern_iff : (word.toNat : Int) = exact % 2 ^ 32 ↔ 0 ≤ exact ∧ exact < 2 ^ 32

lemma standsFor_of_wrapped {exact : Int} {word : UInt64} (h : (word.toNat : Int) = exact % 2 ^ 64)
    (hlow : -2 ^ 63 ≤ exact) (hhigh : exact < 2 ^ 64) : StandsFor exact word := by
  refine ⟨h, ?_, ?_⟩ <;> omega

lemma wrapped_add {x y : UInt64} {a b : Int} (hx : (x.toNat : Int) = a % 2 ^ 64)
    (hy : (y.toNat : Int) = b % 2 ^ 64) : ((x + y).toNat : Int) = (a + b) % 2 ^ 64 := by
  rw [UInt64.toNat_add]
  omega

/-- Sign extension keeps a word's number in two's complement. -/
lemma toNat_signExtend {size : Nat} (hsize : size = 2 ∨ size = 4) {word : UInt64}
    (h : word.toNat < 256 ^ size) :
    ((signExtend size word).toNat : Int) = (word.toNat : Int).bmod (256 ^ size) % 2 ^ 64 := by
  have hword := word.toNat_lt
  have hbound : 1 <<< (8 * size) = 256 ^ size := one_shiftLeft_mul 8 size
  have htop : (UInt64.ofNat (256 ^ size)).toNat = 256 ^ size := by
    obtain rfl | rfl := hsize <;> rfl
  unfold signExtend
  dsimp only
  rw [hbound, Int.bmod_def]
  split
  · obtain rfl | rfl := hsize <;> split <;> omega
  · rw [UInt64.toNat_sub, htop]
    obtain rfl | rfl := hsize <;> split <;> omega

namespace PointerFormat

/-- The size of a field of at most four bytes on a 32-bit target. -/
def narrowSize? : PointerFormat → Option Nat
  | native | udata4 | sdata4 => some 4
  | udata2 | sdata2 => some 2
  | _ => none

/-- The number in a field, in two's complement where the format is signed. -/
def number (order : Endian) (field : List UInt8) (format : PointerFormat) : Int :=
  if format.isSigned then (order.positional field : Int).bmod (256 ^ field.length)
  else order.positional field

lemma narrowSize_cases {format : PointerFormat} {size : Nat} (h : format.narrowSize? = some size) :
    size = 2 ∨ size = 4 := by
  cases format <;> cases h <;> simp

lemma number_bounds (order : Endian) (format : PointerFormat) {field : List UInt8}
    (h : field.length = 2 ∨ field.length = 4) :
    -2 ^ 31 ≤ format.number order field ∧ format.number order field < 2 ^ 32 := by
  have hlt := order.positional_lt field
  unfold number
  cases format.isSigned with
  | false =>
    rw [if_neg Bool.false_ne_true]
    rcases h with h | h <;> rw [h] at hlt <;> omega
  | true =>
    rw [if_pos rfl, Int.bmod_def]
    rcases h with h | h <;> rw [h] at hlt ⊢ <;> split <;> omega

end PointerFormat

/-! ### Fields and pointers -/

variable {frame : ExceptionFrame} {cursor after : Cursor} {value : UInt64}

/-- How a reader takes a word of some size for an exact value, which the word may cut off. -/
structure ReadsWord (size : Nat) (exact : Int) (cursor after : Cursor) (value : UInt64) : Prop where
  room : size ≤ cursor.rest.length
  after_eq : after = cursor.skip size
  wrapped : (value.toNat : Int) = exact % 2 ^ 64

lemma toNat_of_unsigned_run {size : Nat} (hsize : size = 2 ∨ size = 4)
    (h : (frame.unsigned size).run cursor = some (value, after)) :
    size ≤ cursor.rest.length ∧ after = cursor.skip size ∧
      value.toNat = frame.order.positional (cursor.rest.take size) ∧ value.toNat < 256 ^ size := by
  obtain ⟨hroom, hvalue, hafter⟩ := unsigned_run_eq_some_iff.mp h
  have hlength : (cursor.rest.take size).length = size := List.length_take_of_le hroom
  have htoNat : value.toNat = frame.order.positional (cursor.rest.take size) := by
    rw [hvalue]
    exact frame.order.toNat_value (by omega)
  have hlt := frame.order.positional_lt (cursor.rest.take size)
  rw [hlength] at hlt
  exact ⟨hroom, hafter, htoNat, htoNat.trans_lt hlt⟩

lemma readsWord_of_unsigned {format : PointerFormat} {size : Nat} (hsize : size = 2 ∨ size = 4)
    (hformat : format.isSigned = false)
    (h : (frame.unsigned size).run cursor = some (value, after)) :
    ReadsWord size (format.number frame.order (cursor.rest.take size)) cursor after value := by
  obtain ⟨hroom, hafter, hvalue, -⟩ := toNat_of_unsigned_run hsize h
  have hword := value.toNat_lt
  refine ⟨hroom, hafter, ?_⟩
  rw [PointerFormat.number, if_neg (by simp [hformat]), ← hvalue]
  omega

lemma readsWord_of_signed {format : PointerFormat} {size : Nat} (hsize : size = 2 ∨ size = 4)
    (hformat : format.isSigned = true)
    (h : (frame.signed size).run cursor = some (value, after)) :
    ReadsWord size (format.number frame.order (cursor.rest.take size)) cursor after value := by
  obtain ⟨⟨word, place⟩, hword, heq⟩ := Option.bind_eq_some_iff.mp h
  cases heq
  obtain ⟨hroom, hafter, hvalue, hlt⟩ := toNat_of_unsigned_run hsize hword
  refine ⟨hroom, hafter, ?_⟩
  rw [PointerFormat.number, if_pos hformat, toNat_signExtend hsize hlt, hvalue,
    List.length_take_of_le hroom]

lemma readsWord_of_field (hpointer : frame.pointerSize = 4) {code : UInt8}
    {format : PointerFormat} (hcode : code.toNat % 16 = format.code.toNat) {size : Nat}
    (hsize : format.narrowSize? = some size)
    (h : (frame.field code).run cursor = some (value, after)) :
    ReadsWord size (format.number frame.order (cursor.rest.take size)) cursor after value := by
  have hcases := PointerFormat.narrowSize_cases hsize
  unfold field at h
  rw [hcode, hpointer] at h
  cases format with
  | native | udata2 | udata4 =>
    cases hsize
    exact readsWord_of_unsigned hcases rfl h
  | sdata2 | sdata4 =>
    cases hsize
    exact readsWord_of_signed hcases rfl h
  | uleb128 | udata8 | sleb128 | sdata8 => cases hsize

lemma pointer_run_eq_some {encoding : PointerEncoding}
    (h : (frame.pointer encoding.byte).run cursor = some (value, after)) :
    ∃ found, (frame.field encoding.byte).run cursor = some (found, after) ∧
      value = encoding.base frame cursor.offset + found := by
  unfold pointer at h
  rw [if_neg encoding.byte_ne_omitted] at h
  simp only [StateT.run_bind, StateT.run_get, Option.pure_def, Option.bind_eq_bind,
    Option.bind_some, encoding.byte_application] at h
  obtain ⟨⟨found, place⟩, hfield, h⟩ := Option.bind_eq_some_iff.mp h
  unfold PointerEncoding.base
  cases hrelative : encoding.relative with
  | false =>
    rw [hrelative] at h
    cases h
    exact ⟨_, hfield, (UInt64.zero_add _).symm⟩
  | true =>
    rw [hrelative] at h
    cases h
    exact ⟨_, hfield, rfl⟩

/-- What a pointer is relative to, before the sum is cut off. -/
def PointerEncoding.exactBase (encoding : PointerEncoding) (frame : ExceptionFrame)
    (position : Nat) : Nat :=
  if encoding.relative then frame.address.toNat + position else 0

lemma PointerEncoding.base_wrapped (encoding : PointerEncoding) (frame : ExceptionFrame)
    (position : Nat) :
    ((encoding.base frame position).toNat : Int) = encoding.exactBase frame position % 2 ^ 64 := by
  unfold base exactBase
  cases encoding.relative with
  | false => rfl
  | true =>
    rw [if_pos rfl, if_pos rfl, UInt64.toNat_add, UInt64.toNat_ofNat']
    omega

lemma readsWord_of_pointer (encoding : PointerEncoding) (hpointer : frame.pointerSize = 4)
    {size : Nat} (hsize : encoding.format.narrowSize? = some size)
    (h : (frame.pointer encoding.byte).run cursor = some (value, after)) :
    ReadsWord size (encoding.exactBase frame cursor.offset +
      encoding.format.number frame.order (cursor.rest.take size)) cursor after value := by
  obtain ⟨found, hfield, rfl⟩ := pointer_run_eq_some h
  obtain ⟨hroom, hafter, hwrapped⟩ :=
    readsWord_of_field hpointer encoding.byte_format hsize hfield
  exact ⟨hroom, hafter, wrapped_add (encoding.base_wrapped frame cursor.offset) hwrapped⟩

lemma exists_format_of_field {code : UInt8}
    (h : (frame.field code).run cursor = some (value, after)) :
    ∃ format : PointerFormat, code.toNat % 16 = format.code.toNat := by
  unfold field at h
  split at h
  · next hcode => exact ⟨.native, hcode⟩
  · next hcode => exact ⟨.uleb128, hcode⟩
  · next hcode => exact ⟨.udata2, hcode⟩
  · next hcode => exact ⟨.udata4, hcode⟩
  · next hcode => exact ⟨.udata8, hcode⟩
  · next hcode => exact ⟨.sleb128, hcode⟩
  · next hcode => exact ⟨.sdata2, hcode⟩
  · next hcode => exact ⟨.sdata4, hcode⟩
  · next hcode => exact ⟨.sdata8, hcode⟩
  · cases h

lemma PointerEncoding.toNat_byte (encoding : PointerEncoding) :
    encoding.byte.toNat = (if encoding.indirect then 128 else 0) +
      (if encoding.relative then 16 else 0) + encoding.format.code.toNat := by
  obtain ⟨format, relative, indirect⟩ := encoding
  cases format <;> cases relative <;> cases indirect <;> rfl

lemma PointerEncoding.exists_byte_eq {code : UInt8} {format : PointerFormat}
    (hformat : code.toNat % 16 = format.code.toNat) (happlication : code.toNat / 16 % 8 ≤ 1) :
    ∃ encoding : PointerEncoding, encoding.byte = code := by
  have hcode := code.toNat_lt
  refine ⟨⟨format, code.toNat / 16 % 8 = 1, 128 ≤ code.toNat⟩, ?_⟩
  apply UInt8.toNat_inj.mp
  rw [toNat_byte]
  simp only [decide_eq_true_eq]
  split <;> split <;> omega

/-- Whatever a pointer is read by is the byte of an encoding. -/
lemma exists_encoding_of_pointer {code : UInt8}
    (h : (frame.pointer code).run cursor = some (value, after)) :
    ∃ encoding : PointerEncoding, encoding.byte = code := by
  unfold pointer at h
  by_cases homitted : code = omitted
  · rw [if_pos homitted] at h
    cases h
  · rw [if_neg homitted] at h
    obtain ⟨⟨found, place⟩, hfield, h⟩ := Option.bind_eq_some_iff.mp h
    obtain ⟨format, hformat⟩ := exists_format_of_field hfield
    refine PointerEncoding.exists_byte_eq hformat ?_
    by_contra hother
    obtain ⟨application, happlication⟩ := Nat.exists_eq_add_of_lt (Nat.lt_of_not_le hother)
    rw [happlication, Nat.add_comm 1] at h
    cases h

/-! ### Frame records -/

lemma frameEntry_run_eq_some {known : List CommonEntry} {body : Nat} {distance : UInt64}
    {entry : Entry}
    (h : (frame.frameEntry known body distance).run cursor = some (entry, after)) :
    ∃ common ∈ known, common.offset + distance.toNat = body ∧
      ∃ start range place, (frame.pointer common.frameEncoding).run cursor = some (start, place) ∧
        (frame.pointer (common.frameEncoding &&& 0x0f)).run place = some (range, after) ∧
        entry = .frame start (start + range) := by
  unfold frameEntry at h
  by_cases hnear : body < distance.toNat
  · rw [if_pos hnear] at h
    cases h
  · rw [if_neg hnear] at h
    cases hfound : known.find? (·.offset = body - distance.toNat) with
    | none =>
      rw [hfound] at h
      cases h
    | some common =>
      rw [hfound] at h
      have hplace := List.find?_some hfound
      obtain ⟨⟨start, place⟩, hstart, h⟩ := Option.bind_eq_some_iff.mp h
      obtain ⟨⟨range, last⟩, hrange, heq⟩ := Option.bind_eq_some_iff.mp h
      cases heq
      refine ⟨common, List.mem_of_find?_eq_some hfound, ?_, start, range, place, hstart, hrange, rfl⟩
      rw [decide_eq_true_eq] at hplace
      omega

lemma mem_readingsFrom {fuel : Nat} {known : List CommonEntry} {reading : Reading}
    (h : reading ∈ frame.readingsFrom fuel known cursor) :
    frame.record reading.known reading.start = some (reading.entry, reading.next) ∧
      ∃ count, reading.start = cursor.skip count := by
  induction fuel generalizing known cursor with
  | zero => cases h
  | succ fuel ih =>
    rw [readingsFrom] at h
    cases hrecord : frame.record known cursor with
    | none =>
      rw [hrecord] at h
      cases h
    | some found =>
      obtain ⟨entry, next⟩ := found
      rw [hrecord] at h
      rcases List.mem_cons.mp h with rfl | hlater
      · exact ⟨hrecord, 0, rfl⟩
      · obtain ⟨hread, count, hstart⟩ := ih hlater
        obtain ⟨length, -, -, rfl⟩ := record_eq_some_iff.mp hrecord
        exact ⟨hread, 4 + length.toNat + count, hstart.trans (cursor.skip_skip _ _)⟩

/-- The bytes that are left at a record go up to the end of the section. -/
lemma length_start_of_mem {bytes : List UInt8} {reading : Reading}
    (h : reading ∈ frame.readings bytes) :
    reading.start.offset + reading.start.rest.length = bytes.length := by
  obtain ⟨hrecord, count, hstart⟩ := mem_readingsFrom h
  have hsome := (length_rest_lt_of_record hrecord).2
  rw [hstart] at hsome ⊢
  change _ < (bytes.drop count).length at hsome
  change 0 + count + (bytes.drop count).length = _
  rw [List.length_drop] at hsome ⊢
  omega

namespace Reading

/-- Bytes of the section by their place behind the start of a record. -/
def field (reading : Reading) (place size : Nat) : List UInt8 :=
  (reading.start.rest.drop place).take size

/-- Whether the pointers of a frame record are read by an encoding: it is the one in the common
record that the distance leads back to. -/
def UsesEncoding (reading : Reading) (frame : ExceptionFrame) (encoding : PointerEncoding) : Prop :=
  ∃ common ∈ reading.known,
    common.offset + frame.order.positional (reading.field 4 4) = reading.start.offset + 4 ∧
      common.frameEncoding = encoding.byte

variable (reading : Reading) (frame : ExceptionFrame) (encoding : PointerEncoding) (size : Nat)

instance : Decidable (reading.UsesEncoding frame encoding) :=
  inferInstanceAs (Decidable (∃ common ∈ reading.known, _ ∧ _))

/-- The start of the range of a frame record with fields of one size, as an exact sum. -/
def exactStart : Int :=
  encoding.exactBase frame (reading.start.offset + 8) +
    encoding.format.number frame.order (reading.field 8 size)

def exactLimit : Int :=
  reading.exactStart frame encoding size +
    encoding.format.number frame.order (reading.field (8 + size) size)

end Reading

/-- The two pointers of a frame record give its exact range up to words of 64 bits. -/
lemma Reading.standsFor {reading : Reading} {encoding : PointerEncoding} {size : Nat}
    (hpointer : frame.pointerSize = 4) (hsize : encoding.format.narrowSize? = some size)
    (hspace : frame.address.toNat + (reading.start.offset + reading.start.rest.length) ≤ 2 ^ 63)
    {place : Cursor} {start range : UInt64}
    (hstart : (frame.pointer encoding.byte).run (reading.start.skip 8) = some (start, place))
    (hrange : (frame.pointer (encoding.byte &&& 0x0f)).run place = some (range, after)) :
    StandsFor (reading.exactStart frame encoding size) start ∧
      StandsFor (reading.exactLimit frame encoding size) (start + range) := by
  have hcases := PointerFormat.narrowSize_cases hsize
  have hread := readsWord_of_pointer encoding hpointer hsize hstart
  obtain rfl := hread.after_eq
  rw [encoding.byte_and_low, Cursor.skip_skip] at hrange
  have hread' := readsWord_of_pointer encoding.plain hpointer hsize hrange
  have hstartWrapped : (start.toNat : Int) = reading.exactStart frame encoding size % 2 ^ 64 :=
    hread.wrapped
  have hrangeWrapped : (range.toNat : Int) =
      encoding.format.number frame.order (reading.field (8 + size) size) % 2 ^ 64 := by
    rw [hread'.wrapped]
    exact congrArg (· % 2 ^ 64) (Int.zero_add _)
  have hlimitWrapped : ((start + range).toNat : Int) =
      reading.exactLimit frame encoding size % 2 ^ 64 := wrapped_add hstartWrapped hrangeWrapped
  -- both sums lie between -2 ^ 63 and 2 ^ 64, where a word below 2 ^ 32 stands for no other sum
  have hlength : (reading.field 8 size).length = size := List.length_take_of_le hread.room
  have hlength' : (reading.field (8 + size) size).length = size :=
    List.length_take_of_le hread'.room
  rw [← hlength] at hcases
  have hbounds := encoding.format.number_bounds frame.order hcases
  rw [hlength, ← hlength'] at hcases
  have hbounds' := encoding.format.number_bounds frame.order hcases
  have hbase : encoding.exactBase frame (reading.start.offset + 8) ≤ 2 ^ 63 := by
    have hroom := hread.room
    change size ≤ (reading.start.rest.drop 8).length at hroom
    rw [List.length_drop] at hroom
    unfold PointerEncoding.exactBase
    split <;> omega
  unfold exactLimit exactStart at *
  exact ⟨standsFor_of_wrapped hstartWrapped (by omega) (by omega),
    standsFor_of_wrapped hlimitWrapped (by omega) (by omega)⟩

/-- Every frame record reads the two fields of its range by an encoding of its common record. -/
lemma Reading.exists_pointers {reading : Reading} {start limit : UInt64}
    (h : frame.record reading.known reading.start = some (.frame start limit, reading.next)) :
    ∃ encoding, reading.UsesEncoding frame encoding ∧ ∃ place after range,
      (frame.pointer encoding.byte).run (reading.start.skip 8) = some (start, place) ∧
        (frame.pointer (encoding.byte &&& 0x0f)).run place = some (range, after) ∧
        limit = start + range := by
  obtain ⟨length, distance, hlaid, -⟩ := record_eq_some_iff.mp h
  obtain ⟨after, hfields⟩ := hlaid.fields_read
  obtain ⟨-, -, hdistance, -⟩ := toNat_of_unsigned_run (.inr rfl) hlaid.distance_read
  unfold recordFields at hfields
  by_cases hzero : distance = 0
  · rw [if_pos hzero] at hfields
    obtain ⟨⟨common, place⟩, -, heq⟩ := Option.bind_eq_some_iff.mp hfields
    cases heq
  · rw [if_neg hzero] at hfields
    obtain ⟨common, hcommon, hback, found, range, place, hstart, hrange, heq⟩ :=
      frameEntry_run_eq_some hfields
    cases heq
    obtain ⟨encoding, hencoding⟩ := exists_encoding_of_pointer hstart
    rw [← hencoding, Cursor.skip_skip] at hstart
    rw [← hencoding] at hrange
    rw [hdistance] at hback
    exact ⟨encoding, ⟨common, hcommon, hback, hencoding.symm⟩, place, after, range, hstart, hrange,
      rfl⟩

/-- How the rows of ranges come from the records of a section: each is the range of one frame
record, whose two addresses stand for exact sums. -/
structure ListsRanges (frame : ExceptionFrame) (bytes : List UInt8) (rows : List Row) : Prop where
  rows_eq : rows =
    (frame.readings bytes).filterMap fun reading => Loader.frameEntryRow? reading.entry
  ranges : ∀ reading ∈ frame.readings bytes, ∀ start limit, reading.entry = .frame start limit →
    ∃ encoding, reading.UsesEncoding frame encoding ∧
      ∀ size, encoding.format.narrowSize? = some size →
        StandsFor (reading.exactStart frame encoding size) start ∧
          StandsFor (reading.exactLimit frame encoding size) limit

lemma listsRanges_frameRows {bytes : List UInt8} (hpointer : frame.pointerSize = 4)
    (hspace : frame.address.toNat + bytes.length ≤ 2 ^ 63) :
    ListsRanges frame bytes (frame.frameRows bytes) := by
  constructor
  · rw [frameRows, records, ← map_entry_readingsFrom, List.filterMap_map]
    rfl
  · intro reading hreading start limit hentry
    obtain ⟨hrecord, -⟩ := mem_readingsFrom hreading
    rw [hentry] at hrecord
    obtain ⟨encoding, huses, place, after, range, hpointers, hrange, rfl⟩ :=
      Reading.exists_pointers hrecord
    rw [← length_start_of_mem hreading] at hspace
    exact ⟨encoding, huses, fun size hsize =>
      Reading.standsFor hpointer hsize hspace hpointers hrange⟩

lemma rows_fde_addresses {binary : Binary} {s : Section} {bytes : List UInt8}
    (hsection : binary.sectionNamed? ".eh_frame" = some s) (hbytes : s.bytes = some bytes)
    (program : String) :
    (Loader.exceptionFrames binary (.new program)).rows "fde_addresses" =
      (binary.exceptionFrame s).frameRows bytes := by
  simp [Loader.exceptionFrames, hsection, hbytes, frameRows]

/-- The ranges of a section in the lower half of the address space, on a target with addresses of 32
bits. An address is one of the target, and the one that its sum comes to there, just if the exact
sum lies between 0 and `2 ^ 32`. -/
theorem narrow_ranges_exact_iff {binary : Binary} (hisa : binary.isa.pointerWidth? = some 32)
    {s : Section} (hsection : binary.sectionNamed? ".eh_frame" = some s) {bytes : List UInt8}
    (hbytes : s.bytes = some bytes) (hspace : s.address.toNat + bytes.length ≤ 2 ^ 63)
    (program : String) :
    ListsRanges (binary.exceptionFrame s) bytes
      ((Loader.exceptionFrames binary (.new program)).rows "fde_addresses") := by
  have hpointer : (binary.exceptionFrame s).pointerSize = 4 := by
    rw [Binary.exceptionFrame, hisa]
    rfl
  rw [rows_fde_addresses hsection hbytes]
  exact listsRanges_frameRows hpointer hspace

/-- A common record that gives an encoding, and a frame record whose start is 0x1019 bytes before
its field if the field is read as a signed number of 32 bits. -/
def backwardBytes (encoding : PointerEncoding) : List UInt8 :=
  [0, 0, 0, 13, 0, 0, 0, 0, 1, 0x7a, 0x52, 0, 1, 0x78, 16, 1, encoding.byte,
    0, 0, 0, 12, 0, 0, 0, 21, 0xff, 0xff, 0xef, 0xe7, 0, 0, 0, 0x40]

def backwardSection (encoding : PointerEncoding) : Section :=
  ⟨".eh_frame", 0x2000, 33, "PROGBITS", 1,
    { readable := true, loaded := true, initialized := true }, some (backwardBytes encoding)⟩

def backwardBinary (encoding : PointerEncoding) : Binary :=
  { name := "m", format := .elf, isa := .mips32, byteOrder := .big
    sections := [backwardSection encoding] }

/-- In a signed field the distance is negative, and the range lies at the sum. -/
theorem narrow_ranges_exact_iff_signed :
    let encoding : PointerEncoding := ⟨.sdata4, true, false⟩
    let binary := backwardBinary encoding
    let rows := (Loader.exceptionFrames binary (.new "m")).rows "fde_addresses"
    binary.isa.pointerWidth? = some 32 ∧
      binary.sectionNamed? ".eh_frame" = some (backwardSection encoding) ∧
      ListsRanges (binary.exceptionFrame (backwardSection encoding)) (backwardBytes encoding) rows ∧
      rows = [[.unsigned 0x1000, .unsigned 0x1040]] := by
  intro encoding binary rows
  exact ⟨rfl, rfl, narrow_ranges_exact_iff rfl rfl rfl (by decide) "m", by decide +kernel⟩

/-- In the field of a native pointer it is a large number. The range lies above the 32-bit address
space, although both sums are addresses of the target up to multiples of `2 ^ 32`. -/
theorem backward_range_is_not_narrow :
    let encoding : PointerEncoding := ⟨.native, true, false⟩
    let binary := backwardBinary encoding
    let frame := binary.exceptionFrame (backwardSection encoding)
    binary.isa.pointerWidth? = some 32 ∧
      binary.sectionNamed? ".eh_frame" = some (backwardSection encoding) ∧
      (backwardSection encoding).address.toNat + (backwardSection encoding).size.toNat ≤ 2 ^ 32 ∧
      (Loader.exceptionFrames binary (.new "m")).rows "fde_addresses" =
        [[.unsigned 0x100001000, .unsigned 0x100001040]] ∧
      ∃ reading ∈ frame.readings (backwardBytes encoding),
        reading.entry = .frame 0x100001000 0x100001040 ∧
          reading.UsesEncoding frame encoding ∧ encoding.format.narrowSize? = some 4 ∧
          reading.exactStart frame encoding 4 % 2 ^ 32 = 0x1000 ∧
          reading.exactLimit frame encoding 4 % 2 ^ 32 = 0x1040 := by
  exact ⟨rfl, rfl, by decide, by decide +kernel, by decide +kernel⟩

end BinaryFacts.ExceptionFrame
