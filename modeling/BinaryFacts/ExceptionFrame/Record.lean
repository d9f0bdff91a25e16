import BinaryFacts.ExceptionFrame.Pointer

/-!
# Exception-frame records

The records of an exception-frame section. A common entry says how the addresses of its frame
entries are encoded; a frame entry gives a range of code and points back to its common entry.
-/

namespace BinaryFacts.ExceptionFrame

structure CommonEntry where
  /-- The place of the record in the section. -/
  offset : Nat
  frameEncoding : UInt8 := 0
  dataEncoding : UInt8 := omitted
deriving DecidableEq, Inhabited

inductive Entry where
  | common (entry : CommonEntry)
  | frame (start limit : UInt64)
deriving DecidableEq, Inhabited

variable (frame : ExceptionFrame)

/-- The data that the letters of an augmentation announce, up to the first unknown letter. -/
def augmentation (entry : CommonEntry) : List UInt8 → Reader CommonEntry
  | [] => return entry
  | letter :: letters =>
    if letter = 'R'.toUInt8 then do
      augmentation { entry with frameEncoding := ← Reader.byte } letters
    else if letter = 'L'.toUInt8 then do
      augmentation { entry with dataEncoding := ← Reader.byte } letters
    else if letter = 'P'.toUInt8 then do
      let _ ← frame.pointer (← Reader.byte)
      augmentation entry letters
    else if letter = 'S'.toUInt8 ∨ letter = 'B'.toUInt8 then augmentation entry letters
    else return entry

/-- The return register, a byte in the first version and a LEB128 number later. -/
def returnRegister (version : UInt8) : Reader Unit :=
  if version = 1 then discard Reader.byte else discard Leb128.readUnsigned

/-- The rest of a common entry that starts at `offset`. -/
def commonEntry (offset : Nat) : Reader CommonEntry := do
  let version ← Reader.byte
  let letters ← Reader.terminated
  let _codeAlignment ← Leb128.readUnsigned
  let _dataAlignment ← Leb128.readSigned
  returnRegister version
  match letters with
  | [] => return { offset }
  | letter :: letters =>
    if letter = 'z'.toUInt8 then do
      let _length ← Leb128.readUnsigned
      frame.augmentation { offset } letters
    else return { offset }

/-- The rest of a frame entry whose common entry lies `distance` bytes before `body`. -/
def frameEntry (known : List CommonEntry) (body : Nat) (distance : UInt64) : Reader Entry := do
  if body < distance.toNat then failure
  match known.find? (·.offset = body - distance.toNat) with
  | none => failure
  | some entry => do
    let start ← frame.pointer entry.frameEncoding
    let size ← frame.pointer (entry.frameEncoding &&& 0x0f)
    return .frame start (start + size)

/-- The record at a place and the place after it. A length of zero ends the section, and records
with a 64-bit length are not read. The fields of a record may run into the bytes after it. -/
def record (known : List CommonEntry) (cursor : Cursor) : Option (Entry × Cursor) := do
  let (length, body) ← (frame.unsigned 4).run cursor
  if length = 0 ∨ length = 0xffffffff ∨ body.rest.length < length.toNat then none
  let next : Cursor := ⟨body.offset + length.toNat, body.rest.drop length.toNat⟩
  let (distance, fields) ← (frame.unsigned 4).run body
  let (entry, _) ←
    if distance = 0 then ((Entry.common <$> frame.commonEntry cursor.offset).run fields)
    else (frame.frameEntry known body.offset distance).run fields
  return (entry, next)

/-- The common entries known once a record has been read. -/
def learn (known : List CommonEntry) : Entry → List CommonEntry
  | .common entry => known ++ [entry]
  | .frame .. => known

/-- At most `fuel` records from a place on, up to the first that cannot be read. -/
def recordsFrom : Nat → List CommonEntry → Cursor → List Entry
  | 0, _, _ => []
  | fuel + 1, known, cursor =>
    match frame.record known cursor with
    | none => []
    | some (entry, next) => entry :: recordsFrom fuel (learn known entry) next

/-- The records of a section's bytes. Each takes more than four of them. -/
def records (bytes : List UInt8) : List Entry :=
  frame.recordsFrom bytes.length [] ⟨0, bytes⟩

end BinaryFacts.ExceptionFrame
