import BinaryFacts.ExceptionFrame.Record
import BinaryFacts.Proofs.PointerFields
import Mathlib.Tactic.Lemma

/-!
# Writing exception-frame records

Well-formed records, their bytes and their entries. A record is read back from its bytes at its own
place, whatever follows it.
-/

namespace BinaryFacts.ExceptionFrame

/-- A number and a count of digits before the last that it fits in. The bits of all digits can be
counted in a word of 32 bits. -/
structure UnsignedNumber where
  value : Nat
  more : Nat := 0
  fits : value < 128 ^ (more + 1) := by decide
  counted : 7 * (more + 1) < 2 ^ 32 := by decide

structure SignedNumber where
  value : Int
  more : Nat := 0
  fits : FitsSigned (128 ^ (more + 1)) value := by decide
  counted : 7 * (more + 1) < 2 ^ 32 := by decide

def UnsignedNumber.bytes (number : UnsignedNumber) : List UInt8 :=
  Leb128.digits number.more number.value

def SignedNumber.bytes (number : SignedNumber) : List UInt8 :=
  Leb128.signedDigits number.more number.value

lemma UnsignedNumber.reads (number : UnsignedNumber) (offset : Nat) :
    Leb128.readUnsigned.Reads offset number.bytes (UInt64.ofNat number.value) :=
  Leb128.reads_unsigned number.counted offset number.fits

lemma SignedNumber.reads (number : SignedNumber) (offset : Nat) :
    Leb128.readSigned.Reads offset number.bytes (Int64.ofInt number.value) :=
  Leb128.reads_signed number.counted offset number.fits

/-- What one letter of an augmentation announces. -/
inductive AugmentationItem where
  | frameEncoding (encoding : UInt8)
  | dataEncoding (encoding : UInt8)
  /-- A pointer, given by the value of its field. -/
  | personality (encoding : PointerEncoding) (more : Nat) (value : UInt64)
  | signal
  | keyed

namespace AugmentationItem

def letter : AugmentationItem → UInt8
  | frameEncoding _ => 'R'.toUInt8
  | dataEncoding _ => 'L'.toUInt8
  | personality .. => 'P'.toUInt8
  | signal => 'S'.toUInt8
  | keyed => 'B'.toUInt8

variable (frame : ExceptionFrame)

def data : AugmentationItem → List UInt8
  | frameEncoding encoding => [encoding]
  | dataEncoding encoding => [encoding]
  | personality encoding more value => [encoding.byte] ++ encoding.format.bytes frame more value
  | signal => []
  | keyed => []

def Fits : AugmentationItem → Prop
  | personality encoding more value => encoding.format.Fits frame more value
  | _ => True

/-- A later item takes the place of an earlier one of its kind. -/
def enter (entry : CommonEntry) : AugmentationItem → CommonEntry
  | frameEncoding encoding => { entry with frameEncoding := encoding }
  | dataEncoding encoding => { entry with dataEncoding := encoding }
  | _ => entry

@[simp]
lemma enter_offset (entry : CommonEntry) (item : AugmentationItem) :
    (enter entry item).offset = entry.offset := by
  cases item <;> rfl

lemma foldl_enter_offset (items : List AugmentationItem) (entry : CommonEntry) :
    (items.foldl enter entry).offset = entry.offset := by
  induction items generalizing entry with
  | nil => rfl
  | cons item items ih => rw [List.foldl_cons, ih, enter_offset]

lemma letter_ne_zero (item : AugmentationItem) : item.letter ≠ 0 := by
  cases item <;> exact of_decide_eq_true rfl

end AugmentationItem

variable (frame : ExceptionFrame)

lemma reads_augmentation {items : List AugmentationItem} (h : ∀ item ∈ items, item.Fits frame)
    (entry : CommonEntry) (offset : Nat) :
    (frame.augmentation entry (items.map AugmentationItem.letter)).Reads offset
      (items.flatMap (AugmentationItem.data frame)) (items.foldl AugmentationItem.enter entry) := by
  induction items generalizing entry offset with
  | nil => exact Reader.Reads.pure offset entry
  | cons item items ih =>
    obtain ⟨hitem, hitems⟩ := List.forall_mem_cons.mp h
    have hlater := ih hitems
    rw [List.map_cons, List.flatMap_cons, List.foldl_cons, augmentation]
    -- the letter of an item picks the branch that reads its data
    cases item with
    | frameEncoding encoding =>
      rw [AugmentationItem.letter, if_pos rfl]
      exact (Reader.reads_byte offset encoding).bind (hlater _ _)
    | dataEncoding encoding =>
      rw [AugmentationItem.letter, if_neg (by decide), if_pos rfl]
      exact (Reader.reads_byte offset encoding).bind (hlater _ _)
    | personality encoding more value =>
      rw [AugmentationItem.letter, if_neg (by decide), if_neg (by decide), if_pos rfl,
        AugmentationItem.data, List.append_assoc]
      exact (Reader.reads_byte offset _).bind
        ((frame.reads_pointer encoding hitem _).bind (hlater _ _))
    | signal =>
      rw [AugmentationItem.letter, if_neg (by decide), if_neg (by decide), if_neg (by decide),
        if_pos (by decide)]
      exact hlater entry offset
    | keyed =>
      rw [AugmentationItem.letter, if_neg (by decide), if_neg (by decide), if_neg (by decide),
        if_pos (by decide)]
      exact hlater entry offset

/-- The augmentation of a common record. Only one that starts with `z` has data. -/
inductive Augmentation where
  | unsized (text : List UInt8) (terminated : 0 ∉ text) (plain : text.head? ≠ some 'z'.toUInt8)
  | sized (length : UnsignedNumber) (items : List AugmentationItem)

namespace Augmentation

def text : Augmentation → List UInt8
  | unsized text _ _ => text
  | sized _ items => 'z'.toUInt8 :: items.map AugmentationItem.letter

def items : Augmentation → List AugmentationItem
  | unsized .. => []
  | sized _ items => items

def data : Augmentation → List UInt8
  | unsized .. => []
  | sized length items => length.bytes ++ items.flatMap (AugmentationItem.data frame)

lemma zero_not_mem_text (augmentation : Augmentation) : 0 ∉ augmentation.text := by
  cases augmentation with
  | unsized text terminated _ => exact terminated
  | sized length items =>
    intro h
    rcases List.mem_cons.mp h with h | h
    · exact absurd h (by decide)
    · obtain ⟨item, _, hzero⟩ := List.mem_map.mp h
      exact item.letter_ne_zero hzero

end Augmentation

/-- The return register, of one byte in the first version alone. -/
inductive ReturnRegister (version : UInt8) where
  | byte (first : version = 1) (register : UInt8)
  | number (later : version ≠ 1) (register : UnsignedNumber)

def ReturnRegister.bytes {version : UInt8} : ReturnRegister version → List UInt8
  | byte _ register => [register]
  | number _ register => register.bytes

lemma ReturnRegister.reads {version : UInt8} (register : ReturnRegister version) (offset : Nat) :
    (returnRegister version).Reads offset register.bytes () := by
  unfold returnRegister
  cases register with
  | byte first register =>
    rw [if_pos first]
    exact (Reader.reads_byte offset register).bind_pure fun _ => ()
  | number later register =>
    rw [if_neg later]
    exact (register.reads offset).bind_pure fun _ => ()

structure CommonRecord where
  version : UInt8
  augmentation : Augmentation
  codeAlignment : UnsignedNumber
  dataAlignment : SignedNumber
  returnRegister : ReturnRegister version
  trailing : List UInt8 := []

namespace CommonRecord

variable (record : CommonRecord)

def fields : List UInt8 :=
  [record.version] ++ ((record.augmentation.text ++ [0]) ++ (record.codeAlignment.bytes ++
    (record.dataAlignment.bytes ++ (record.returnRegister.bytes ++ record.augmentation.data frame))))

def entry (offset : Nat) : CommonEntry :=
  record.augmentation.items.foldl AugmentationItem.enter { offset }

@[simp]
lemma entry_offset (offset : Nat) : (record.entry offset).offset = offset :=
  AugmentationItem.foldl_enter_offset record.augmentation.items { offset }

lemma reads (h : ∀ item ∈ record.augmentation.items, item.Fits frame) (offset place : Nat) :
    (frame.commonEntry offset).Reads place (record.fields frame) (record.entry offset) := by
  obtain ⟨version, augmentation, codeAlignment, dataAlignment, register, trailing⟩ := record
  refine (Reader.reads_byte place version).bind ?_
  refine (Reader.reads_terminated _ augmentation.zero_not_mem_text).bind ?_
  refine (codeAlignment.reads _).bind ((dataAlignment.reads _).bind ((register.reads _).bind ?_))
  cases augmentation with
  | unsized text terminated plain =>
    cases text with
    | nil => exact Reader.Reads.pure _ _
    | cons letter letters =>
      dsimp only [Augmentation.text]
      rw [if_neg fun hz => plain (congrArg some hz)]
      exact Reader.Reads.pure _ _
  | sized length items =>
    dsimp only [Augmentation.text]
    rw [if_pos rfl]
    exact (length.reads _).bind (frame.reads_augmentation h { offset } _)

end CommonRecord

lemma toNat_ofNat_short {n : Nat} (h : n < 2 ^ 32) : (UInt64.ofNat n).toNat = n :=
  UInt64.toNat_ofNat_of_lt' (h.trans (by decide))

lemma reads_short (offset : Nat) {n : Nat} (h : n < 2 ^ 32) :
    (frame.unsigned 4).Reads offset (frame.order.bytes 4 n) (UInt64.ofNat n) := by
  have hread := frame.reads_unsigned offset 4 n
  rwa [Nat.mod_eq_of_lt (by omega)] at hread

/-- A frame record: the place of its common record, the encoding that it says, and a range of code.
Any bytes may lie behind its fields. -/
structure FrameRecord where
  commonAt : Nat
  encoding : PointerEncoding
  start : UInt64
  startMore : Nat := 0
  size : UInt64
  sizeMore : Nat := 0
  trailing : List UInt8 := []

namespace FrameRecord

variable (record : FrameRecord)

def fields (place : Nat) : List UInt8 :=
  record.encoding.bytes frame place record.startMore record.start ++
    record.encoding.format.bytes frame record.sizeMore record.size

/-- Whether there is room for the range, and its common record lies near enough before `body`. -/
structure Fits (known : List CommonEntry) (body : Nat) : Prop where
  common : ∃ entry ∈ known,
    entry.offset = record.commonAt ∧ entry.frameEncoding = record.encoding.byte
  near : body - record.commonAt < 2 ^ 32
  start : record.encoding.Fits frame (body + 4) record.startMore record.start
  size : record.encoding.format.Fits frame record.sizeMore record.size

end FrameRecord

/-- Common entries in the order of their places, all of them before `offset`. -/
structure KnownBefore (known : List CommonEntry) (offset : Nat) : Prop where
  ascending : known.Pairwise (·.offset < ·.offset)
  before : ∀ entry ∈ known, entry.offset < offset

lemma KnownBefore.find?_offset {known : List CommonEntry} {offset : Nat}
    (h : KnownBefore known offset) {entry : CommonEntry} (hentry : entry ∈ known) :
    known.find? (·.offset = entry.offset) = some entry := by
  have hascending := h.ascending
  clear h
  induction known with
  | nil => cases hentry
  | cons head known ih =>
    -- an entry before the one looked for lies at a smaller place
    obtain ⟨hhead, hknown⟩ := List.pairwise_cons.mp hascending
    rcases List.mem_cons.mp hentry with rfl | hlater
    · exact List.find?_cons_of_pos (decide_eq_true rfl)
    · have hne := hhead entry hlater
      rw [List.find?_cons_of_neg (by rw [decide_eq_true_eq]; omega)]
      exact ih hlater hknown

namespace FrameRecord

variable {frame} {record : FrameRecord} {known : List CommonEntry} {offset : Nat}

lemma reads (hknown : KnownBefore known offset) (h : record.Fits frame known (offset + 4)) :
    (frame.frameEntry known (offset + 4) (UInt64.ofNat (offset + 4 - record.commonAt))).Reads
      (offset + 4 + 4) (record.fields frame (offset + 4 + 4))
      (.frame record.start (record.start + record.size)) := by
  obtain ⟨⟨entry, hentry, hat, hencoding⟩, hnear, hstart, hsize⟩ := h
  have hbefore := hknown.before entry hentry
  have hdistance : (UInt64.ofNat (offset + 4 - record.commonAt)).toNat =
      offset + 4 - record.commonAt := toNat_ofNat_short hnear
  have hplace : offset + 4 - (offset + 4 - record.commonAt) = entry.offset := by omega
  unfold frameEntry
  rw [hdistance, if_neg (by omega), hplace, hknown.find?_offset hentry]
  dsimp only
  rw [hencoding]
  exact (frame.reads_pointerTo hstart).bind ((frame.reads_number hsize _).bind_pure fun size =>
    Entry.frame record.start (record.start + size))

end FrameRecord

lemma record_of_reads {known : List CommonEntry} {offset distance : Nat} {fields : List UInt8}
    {entry : Entry} (trailing rest : List UInt8) (hdistance : distance < 2 ^ 32)
    (hcommon : distance = 0 →
      (Entry.common <$> frame.commonEntry offset).Reads (offset + 4 + 4) fields entry)
    (hframe : distance ≠ 0 → (frame.frameEntry known (offset + 4) (UInt64.ofNat distance)).Reads
      (offset + 4 + 4) fields entry)
    {body : List UInt8} (hbody : body = frame.order.bytes 4 distance ++ (fields ++ trailing))
    (hshort : body.length < 0xffffffff) :
    frame.record known ⟨offset, frame.order.bytes 4 body.length ++ (body ++ rest)⟩ =
      some (entry, ⟨offset + 4 + body.length, rest⟩) := by
  have hfour : 4 ≤ body.length := by
    rw [hbody, List.length_append, Endian.length_bytes]
    omega
  have hlength := toNat_ofNat_short (hshort.trans (by decide))
  have hproper : ¬ (UInt64.ofNat body.length = 0 ∨ UInt64.ofNat body.length = 0xffffffff ∨
      (body ++ rest).length < (UInt64.ofNat body.length).toNat) := by
    rw [hlength, List.length_append]
    rintro (hzero | hlong | hover)
    · rw [hzero, UInt64.toNat_zero] at hlength
      omega
    · rw [hlong] at hlength
      exact absurd hlength (ne_of_gt hshort)
    · omega
  have hread := frame.reads_short offset (hshort.trans (by decide)) (body ++ rest)
  have hread' := frame.reads_short (offset + 4) hdistance (fields ++ (trailing ++ rest))
  rw [Endian.length_bytes] at hread hread'
  -- the fields are read out of all that lies behind the distance, not only out of the record
  have hrest : body ++ rest = frame.order.bytes 4 distance ++ (fields ++ (trailing ++ rest)) := by
    rw [hbody, List.append_assoc, List.append_assoc]
  unfold record
  rw [hread, Option.bind_eq_bind, Option.bind_some]
  dsimp only
  rw [if_neg hproper, hlength, List.drop_left, hrest, hread', Option.bind_some]
  dsimp only
  by_cases hzero : distance = 0
  · rw [if_pos (by rw [hzero]; rfl), hcommon hzero]
    rfl
  · have hword := toNat_ofNat_short hdistance
    have hne : UInt64.ofNat distance ≠ 0 := fun h => by
      rw [h, UInt64.toNat_zero] at hword
      exact hzero hword.symm
    rw [if_neg hne, hframe hzero]
    rfl

inductive Record where
  | common (record : CommonRecord)
  | frame (record : FrameRecord)

namespace Record

/-- The bytes of a record at a place, behind its length: the distance to its common record, zero
in a common record itself, the fields and what trails them. -/
def body (offset : Nat) : Record → List UInt8
  | common record =>
    frame.order.bytes 4 0 ++ (record.fields frame ++ record.trailing)
  | .frame record =>
    frame.order.bytes 4 (offset + 4 - record.commonAt) ++
      (record.fields frame (offset + 4 + 4) ++ record.trailing)

def bytes (offset : Nat) (record : Record) : List UInt8 :=
  frame.order.bytes 4 (record.body frame offset).length ++ record.body frame offset

def entry (offset : Nat) : Record → Entry
  | common record => .common (record.entry offset)
  | .frame record => .frame record.start (record.start + record.size)

def Fits (known : List CommonEntry) (offset : Nat) : Record → Prop
  | common record => ∀ item ∈ record.augmentation.items, item.Fits frame
  | .frame record => record.Fits frame known (offset + 4)

structure WellFormed (known : List CommonEntry) (offset : Nat) (record : Record) : Prop where
  short : (record.body frame offset).length < 0xffffffff
  fits : record.Fits frame known offset

variable {frame} {known : List CommonEntry} {offset : Nat}

/-- A well-formed record is read back at its place, whatever follows it. -/
theorem record_bytes {record : Record} (hknown : KnownBefore known offset)
    (h : record.WellFormed frame known offset) (rest : List UInt8) :
    frame.record known ⟨offset, record.bytes frame offset ++ rest⟩ =
      some (record.entry offset, ⟨offset + (record.bytes frame offset).length, rest⟩) := by
  have hlength : offset + (record.bytes frame offset).length =
      offset + 4 + (record.body frame offset).length := by
    rw [bytes, List.length_append, Endian.length_bytes, Nat.add_assoc]
  rw [hlength, bytes, List.append_assoc]
  cases record with
  | common record =>
    exact frame.record_of_reads record.trailing rest (by decide)
      (fun _ => (record.reads frame h.fits offset _).map Entry.common) (fun hne => absurd rfl hne)
      rfl h.short
  | frame record =>
    obtain ⟨entry, hentry, hat, _⟩ := h.fits.common
    have hbefore := hknown.before entry hentry
    exact frame.record_of_reads record.trailing rest h.fits.near
      (fun hzero => absurd hzero (by omega)) (fun _ => FrameRecord.reads hknown h.fits) rfl h.short

end Record

end BinaryFacts.ExceptionFrame
