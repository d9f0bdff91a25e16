import BinaryFacts.Proofs.DigitLoops
import BinaryFacts.Proofs.NarrowFrames

/-!
# Walks that check every access

The walk over an exception-frame section by places in the whole section. An index, a slice or a
shift out of range is a fault, and so is a count of bits that does not fit in its word, in a build
that checks sums. The walk goes on as long as records can be read. It ends on every section and
finds the records that are read from the bytes that are left. Only a number of more than 613 million
digits makes it fault, and only where sums are checked.
-/

namespace BinaryFacts.ExceptionFrame

/-- What stops a program on the spot: an index or a slice that is not in a list, a shift of a word
by less than nothing or by all of its bits, or a sum that does not fit in its word. -/
inductive Fault where
  | index (place length : Nat)
  | slice (low high length : Nat)
  | shift (amount : Int)
  | overflow
deriving DecidableEq

/-- A reader at a place of a section. Where it finds nothing it stays at the place it got to. -/
abbrev Checked := OptionT (StateT Nat (Except Fault))

namespace Checked

variable {α β : Type}

def runAt (reader : Checked α) (position : Nat) : Except Fault (Option α × Nat) :=
  (OptionT.run reader).run position

/-- Goes on whether or not something is found. -/
def attempt (reader : Checked α) : Checked (Option α) := OptionT.lift (OptionT.run reader)

/-- Reads two values, the second one also where the first one is missed. -/
def both (compute : α → α → β) (first second : Checked α) : Checked β := do
  let x ← attempt first
  let y ← attempt second
  match x, y with
  | some x, some y => return compute x y
  | _, _ => failure

def index (items : List α) (place : Nat) : Except Fault α :=
  match items[place]? with
  | some item => .ok item
  | none => .error (.index place items.length)

def slice (items : List α) (low high : Nat) : Except Fault (List α) :=
  if low ≤ high ∧ high ≤ items.length then .ok ((items.drop low).take (high - low))
  else .error (.slice low high items.length)

/-- The shift that brings the sign of a number of some bytes to the top of a word. -/
def signShift (size : Nat) : Except Fault UInt64 :=
  if 8 * size ≤ 64 ∧ 64 - 8 * size < 64 then .ok (UInt64.ofNat (64 - 8 * size))
  else .error (.shift (64 - 8 * size))

/-- The sum of two words. One that does not fit wraps, unless sums are checked. -/
def sum (checks : Bool) (x y : UInt32) : Except Fault UInt32 :=
  if checks ∧ 2 ^ 32 ≤ x.toNat + y.toNat then .error .overflow else .ok (x + y)

lemma runAt_get (next : Nat → Checked β) (position : Nat) :
    (get >>= next).runAt position = (next position).runAt position := rfl

lemma runAt_bind (first : Checked α) (next : α → Checked β) (position : Nat) :
    (first >>= next).runAt position = (first.runAt position).bind fun (found, after) =>
      match found with
      | none => .ok (none, after)
      | some value => (next value).runAt after := by
  change Except.bind _ _ = Except.bind _ _
  congr 1
  funext ⟨found, after⟩
  cases found <;> rfl

lemma runAt_bind_error {first : Checked α} {position : Nat} {fault : Fault}
    (h : first.runAt position = .error fault) (next : α → Checked β) :
    (first >>= next).runAt position = .error fault := by
  rw [runAt_bind, h]
  rfl

lemma runAt_bind_none {first : Checked α} {position after : Nat}
    (h : first.runAt position = .ok (none, after)) (next : α → Checked β) :
    (first >>= next).runAt position = .ok (none, after) := by
  rw [runAt_bind, h]
  rfl

lemma runAt_bind_some {first : Checked α} {position after : Nat} {value : α}
    (h : first.runAt position = .ok (some value, after)) (next : α → Checked β) :
    (first >>= next).runAt position = (next value).runAt after := by
  rw [runAt_bind, h]
  rfl

lemma runAt_attempt {reader : Checked α} {position after : Nat} {found : Option α}
    (h : reader.runAt position = .ok (found, after)) (next : Option α → Checked β) :
    (attempt reader >>= next).runAt position = (next found).runAt after := by
  refine runAt_bind_some ?_ next
  change Except.bind (reader.runAt position) _ = _
  rw [h]
  rfl

lemma runAt_attempt_error {reader : Checked α} {position : Nat} {fault : Fault}
    (h : reader.runAt position = .error fault) (next : Option α → Checked β) :
    (attempt reader >>= next).runAt position = .error fault := by
  refine runAt_bind_error ?_ next
  change Except.bind (reader.runAt position) _ = _
  rw [h]
  rfl

lemma runAt_lift {step : Except Fault α} {value : α} (h : step = .ok value)
    (next : α → Checked β) (position : Nat) :
    ((liftM step : Checked α) >>= next).runAt position = (next value).runAt position := by
  rw [h]
  rfl

lemma slice_eq {items : List α} {low high : Nat} (h : low ≤ high) (h' : high ≤ items.length) :
    slice items low high = .ok ((items.drop low).take (high - low)) :=
  if_pos ⟨h, h'⟩

section

variable (bytes : List UInt8)

def take (count : Nat) : Checked (List UInt8) := do
  let position ← get
  if position + count ≤ bytes.length then
    set (position + count)
    return (bytes.drop position).take count
  else failure

def byte : Checked UInt8 := do
  let found ← take bytes 1
  index found 0

/-- The bytes before the next zero, which is passed over. -/
def terminated : Checked (List UInt8) := do
  let position ← get
  if position ≤ bytes.length then
    let rest := bytes.drop position
    match rest.findIdx? (· == 0) with
    | none => failure
    | some length =>
      let text ← slice rest 0 length
      set (position + (length + 1))
      return text
  else failure

lemma runAt_take (count position : Nat) : (take bytes count).runAt position =
    .ok (if position + count ≤ bytes.length then
      (some ((bytes.drop position).take count), position + count) else (none, position)) := by
  rw [take, runAt_get]
  by_cases h : position + count ≤ bytes.length
  · rw [if_pos h, if_pos h]
    rfl
  · rw [if_neg h, if_neg h]
    rfl

lemma runAt_byte (position : Nat) : (byte bytes).runAt position =
    .ok (match bytes[position]? with
      | some first => (some first, position + 1)
      | none => (none, position)) := by
  rw [byte, runAt_bind, runAt_take]
  by_cases h : position + 1 ≤ bytes.length
  · rw [if_pos h, List.drop_eq_getElem_cons h, List.getElem?_eq_getElem h]
    rfl
  · rw [if_neg h, List.getElem?_eq_none (by omega)]
    rfl

/-- A byte that is read is in the section, and the place behind it is further on. -/
lemma lt_of_runAt_byte {position after : Nat} {first : UInt8}
    (h : (byte bytes).runAt position = .ok (some first, after)) :
    position < bytes.length ∧ after = position + 1 := by
  rw [runAt_byte] at h
  by_cases hlt : position < bytes.length
  · rw [List.getElem?_eq_getElem hlt] at h
    cases h
    exact ⟨hlt, rfl⟩
  · rw [List.getElem?_eq_none (by omega)] at h
    cases h

section

variable (checks : Bool) {ω : Type} (enter finish : ω → UInt32 → UInt8 → ω)

/-- Enters the digits of a LEB128 number one after the other and counts their bits. -/
def numberFrom (number : ω) (shift : UInt32) (position : Nat) : Except Fault (Option ω × Nat) :=
  match _hread : (byte bytes).runAt position with
  | .error fault => .error fault
  | .ok (none, after) => .ok (none, after)
  | .ok (some first, after) =>
    (sum checks shift 7).bind fun behind =>
      let number := enter number shift first
      if first &&& 0x80 = 0 then .ok (some (finish number behind first), after)
      else numberFrom number behind after
termination_by bytes.length - position
decreasing_by
  obtain ⟨hlt, rfl⟩ := lt_of_runAt_byte bytes _hread
  omega

lemma numberFrom_eq (number : ω) (shift : UInt32) (position : Nat) :
    numberFrom bytes checks enter finish number shift position =
      match bytes[position]? with
      | none => .ok (none, position)
      | some first =>
        (sum checks shift 7).bind fun behind =>
          if first &&& 0x80 = 0 then
            .ok (some (finish (enter number shift first) behind first), position + 1)
          else
            numberFrom bytes checks enter finish (enter number shift first) behind
              (position + 1) := by
  have hread := runAt_byte bytes position
  rw [numberFrom]
  cases hfirst : bytes[position]? with
  | none =>
    rw [hfirst] at hread
    split
    · next h => cases hread.symm.trans h
    · next h =>
      cases hread.symm.trans h
      rfl
    · next h => cases hread.symm.trans h
  | some first =>
    rw [hfirst] at hread
    split
    · next h => cases hread.symm.trans h
    · next h => cases hread.symm.trans h
    · next h =>
      cases hread.symm.trans h
      rfl

end

end

def readUnsigned (checks : Bool) (bytes : List UInt8) : Checked UInt64 :=
  numberFrom bytes checks Leb128.enter (fun number _ _ => number) 0 0

def readSigned (checks : Bool) (bytes : List UInt8) : Checked Int64 :=
  numberFrom bytes checks Leb128.enterSigned Leb128.extendSign 0 0

/-! ### Agreement with the readers -/

/-- The cursor at a place of a section. -/
def cursorAt (bytes : List UInt8) (position : Nat) : Cursor := ⟨position, bytes.drop position⟩

lemma skip_cursorAt (bytes : List UInt8) (position count : Nat) :
    (cursorAt bytes position).skip count = cursorAt bytes (position + count) := by
  rw [cursorAt, Cursor.skip, List.drop_drop, cursorAt]

/-- Whether so many digits with the top bit set stand one behind the other, before another byte,
that a word of 32 bits cannot count the bits of all of them. -/
def HasLongNumber (bytes : List UInt8) : Prop :=
  ∃ before digits last after, bytes = before ++ (digits ++ last :: after) ∧
    (∀ byte ∈ digits, 128 ≤ byte.toNat) ∧ 2 ^ 32 ≤ 7 * (digits.length + 1)

lemma HasLongNumber.length_le {bytes : List UInt8} (h : HasLongNumber bytes) :
    2 ^ 32 ≤ 7 * bytes.length := by
  obtain ⟨before, digits, last, after, rfl, -, hlong⟩ := h
  simp only [List.length_append, List.length_cons]
  omega

/-- Whether a sum may be a fault. -/
def MayOverflow (checks : Bool) (bytes : List UInt8) : Prop :=
  checks = true ∧ HasLongNumber bytes

/-- Whether a checked reader never leaves a section and finds what another reader finds in the bytes
that are left. The count of bits is the only thing that may be a fault. -/
def Agrees (checks : Bool) (bytes : List UInt8) (checked : Checked α) (reader : Reader α) : Prop :=
  ∀ position ≤ bytes.length,
    (∃ found after, checked.runAt position = .ok (found, after) ∧ after ≤ bytes.length ∧
      reader.run (cursorAt bytes position) = found.map fun value => (value, cursorAt bytes after)) ∨
    (checked.runAt position = .error .overflow ∧ MayOverflow checks bytes)

variable {checks : Bool} {bytes : List UInt8}

/-- Where sums are not checked, nothing is a fault. -/
lemma Agrees.exists_found {checked : Checked α} {reader : Reader α}
    (h : Agrees false bytes checked reader) {position : Nat} (hposition : position ≤ bytes.length) :
    ∃ found after, checked.runAt position = .ok (found, after) ∧ after ≤ bytes.length ∧
      reader.run (cursorAt bytes position) =
        found.map fun value => (value, cursorAt bytes after) := by
  obtain hfound | ⟨-, hchecks, -⟩ := h position hposition
  · exact hfound
  · cases hchecks

lemma Agrees.pure (value : α) : Agrees checks bytes (Pure.pure value) (Pure.pure value) :=
  fun position hposition => .inl ⟨some value, position, rfl, hposition, rfl⟩

lemma Agrees.failure : Agrees checks bytes (failure : Checked α) failure :=
  fun position hposition => .inl ⟨none, position, rfl, hposition, rfl⟩

lemma Agrees.bind {first : Checked α} {reader : Reader α} {next : α → Checked β}
    {next' : α → Reader β} (hfirst : Agrees checks bytes first reader)
    (hnext : ∀ value, Agrees checks bytes (next value) (next' value)) :
    Agrees checks bytes (first >>= next) (reader >>= next') := by
  intro position hposition
  obtain ⟨found, after, hrun, hafter, hreader⟩ | ⟨hfault, hmay⟩ := hfirst position hposition
  · rw [StateT.run_bind, hreader]
    cases found with
    | none => exact .inl ⟨none, after, runAt_bind_none hrun next, hafter, rfl⟩
    | some value =>
      rw [runAt_bind_some hrun]
      exact hnext value after hafter
  · exact .inr ⟨runAt_bind_error hfault next, hmay⟩

lemma Agrees.map {checked : Checked α} {reader : Reader α} (h : Agrees checks bytes checked reader)
    (compute : α → β) : Agrees checks bytes (compute <$> checked) (compute <$> reader) := by
  rw [← bind_pure_comp, ← bind_pure_comp]
  exact h.bind fun value => .pure (compute value)

/-- Only the place is taken from the cursor. -/
lemma Agrees.get {next : Nat → Checked β} {next' : Cursor → Reader β}
    (h : ∀ position, Agrees checks bytes (next position) (next' (cursorAt bytes position))) :
    Agrees checks bytes (MonadState.get >>= next) (MonadState.get >>= next') :=
  fun position hposition => h position position hposition

/-- A step that does not fault leaves the place as it is. -/
lemma Agrees.lift {step : Except Fault α} {value : α} (hstep : step = .ok value)
    {next : α → Checked β} {reader : Reader β} (h : Agrees checks bytes (next value) reader) :
    Agrees checks bytes ((liftM step : Checked α) >>= next) reader := by
  intro position hposition
  rw [runAt_lift hstep]
  exact h position hposition

lemma agrees_take (count : Nat) : Agrees checks bytes (take bytes count) (Reader.take count) := by
  intro position hposition
  rw [runAt_take]
  refine .inl ?_
  change ∃ _ _, _ ∧ _ ∧ Reader.take count (cursorAt bytes position) = _
  have hlength : (cursorAt bytes position).rest.length = bytes.length - position :=
    List.length_drop
  rw [Reader.take, hlength]
  by_cases h : position + count ≤ bytes.length
  · rw [if_pos h, if_pos (by omega)]
    refine ⟨_, _, rfl, h, ?_⟩
    rw [Option.map_some, ← skip_cursorAt]
    rfl
  · rw [if_neg h, if_neg (by omega)]
    exact ⟨_, _, rfl, hposition, rfl⟩

lemma agrees_byte : Agrees checks bytes (byte bytes) Reader.byte := by
  intro position hposition
  rw [runAt_byte]
  refine .inl ?_
  change ∃ _ _, _ ∧ _ ∧ Reader.byte (cursorAt bytes position) = _
  rw [cursorAt, Reader.byte]
  by_cases h : position < bytes.length
  · rw [List.getElem?_eq_getElem h, List.drop_eq_getElem_cons h]
    exact ⟨_, _, rfl, h, rfl⟩
  · rw [List.getElem?_eq_none (by omega), List.drop_eq_nil_of_le (by omega)]
    exact ⟨_, _, rfl, hposition, rfl⟩

lemma sum_cases (checks : Bool) (x y : UInt32) :
    sum checks x y = .ok (x + y) ∧ (checks = true → (x + y).toNat = x.toNat + y.toNat) ∨
      sum checks x y = .error .overflow ∧ checks = true ∧ 2 ^ 32 ≤ x.toNat + y.toNat := by
  unfold sum
  by_cases h : checks = true ∧ 2 ^ 32 ≤ x.toNat + y.toNat
  · exact .inr ⟨if_pos h, h⟩
  · refine .inl ⟨if_neg h, fun hchecks => ?_⟩
    rw [UInt32.toNat_add]
    exact Nat.mod_eq_of_lt (Nat.lt_of_not_le fun hle => h ⟨hchecks, hle⟩)

section

variable {ω : Type} (enter finish : ω → UInt32 → UInt8 → ω)

/-- A number is read as in the bytes that are left, unless a sum is a fault. The count of bits is
then right up to the digit at which it does not fit. -/
lemma numberFrom_of_drop {rest : List UInt8} {number : ω} {shift : UInt32} {position : Nat}
    (hposition : position ≤ bytes.length) (hrest : bytes.drop position = rest) :
    (∃ found after, numberFrom bytes checks enter finish number shift position =
        .ok (found, after) ∧ after ≤ bytes.length ∧
      Leb128.loop enter finish number shift position rest =
        found.map fun value => (value, cursorAt bytes after)) ∨
    numberFrom bytes checks enter finish number shift position = .error .overflow ∧
      checks = true ∧ ∃ digits last after, rest = digits ++ last :: after ∧
        (∀ byte ∈ digits, 128 ≤ byte.toNat) ∧ 2 ^ 32 ≤ shift.toNat + 7 * (digits.length + 1) := by
  induction rest generalizing number shift position with
  | nil =>
    have hend : position = bytes.length := Nat.le_antisymm hposition (List.drop_eq_nil_iff.mp hrest)
    rw [numberFrom_eq, List.getElem?_eq_none hend.ge]
    exact .inl ⟨none, position, rfl, hposition, rfl⟩
  | cons first rest ih =>
    have hlt : position < bytes.length := by
      by_contra hge
      rw [List.drop_eq_nil_of_le (by omega)] at hrest
      cases hrest
    rw [List.drop_eq_getElem_cons hlt] at hrest
    cases hrest
    rw [numberFrom_eq, List.getElem?_eq_getElem hlt, Leb128.loop]
    dsimp only
    obtain ⟨hsum, hfits⟩ | ⟨hsum, hchecks, hlong⟩ := sum_cases checks shift 7
    · rw [hsum]
      dsimp only [Except.bind]
      by_cases hlast : bytes[position] &&& 0x80 = 0
      · rw [if_pos hlast, if_pos hlast]
        exact .inl ⟨_, position + 1, rfl, hlt, rfl⟩
      rw [if_neg hlast, if_neg hlast]
      obtain hfound | ⟨hfault, hchecks, digits, last, after, hdigits, htop, hlong⟩ :=
        @ih (enter number shift bytes[position]) (shift + 7) (position + 1) hlt rfl
      · exact .inl hfound
      · have hfirst : 128 ≤ bytes[position].toNat :=
          Leb128.isLast_eq_false_iff.mp (Bool.eq_false_of_not_eq_true
            (mt (Leb128.topBit_eq_zero_iff _).mpr hlast))
        refine .inr ⟨hfault, hchecks, bytes[position] :: digits, last, after, ?_,
          List.forall_mem_cons.mpr ⟨hfirst, htop⟩, ?_⟩
        · rw [hdigits, List.cons_append]
        · rw [hfits hchecks] at hlong
          rw [List.length_cons]
          change 2 ^ 32 ≤ shift.toNat + 7 + _ at hlong
          omega
    · rw [hsum]
      exact .inr ⟨rfl, hchecks, [], _, _, rfl, List.forall_mem_nil _, hlong⟩

lemma agrees_numberFrom (number : ω) :
    Agrees checks bytes (numberFrom bytes checks enter finish number 0)
      fun cursor => Leb128.loop enter finish number 0 cursor.offset cursor.rest := by
  intro position hposition
  obtain hfound | ⟨hfault, hchecks, digits, last, after, hdigits, htop, hlong⟩ :=
    @numberFrom_of_drop checks bytes _ enter finish _ number 0 position hposition rfl
  · exact .inl hfound
  · refine .inr ⟨hfault, hchecks, bytes.take position, digits, last, after, ?_, htop, ?_⟩
    · rw [← hdigits, List.take_append_drop]
    · change 2 ^ 32 ≤ 0 + _ at hlong
      omega

end

lemma agrees_readUnsigned :
    Agrees checks bytes (readUnsigned checks bytes) Leb128.readUnsigned :=
  agrees_numberFrom _ _ _

lemma agrees_readSigned : Agrees checks bytes (readSigned checks bytes) Leb128.readSigned :=
  agrees_numberFrom _ _ _

lemma agrees_terminated : Agrees checks bytes (terminated bytes) Reader.terminated := by
  intro position hposition
  rw [terminated, runAt_get, if_pos hposition]
  refine .inl ?_
  change ∃ _ _, _ ∧ _ ∧ Reader.terminated (cursorAt bytes position) = _
  rw [cursorAt, Reader.terminated]
  dsimp only
  have hzero : ∀ byte : UInt8, (!(byte != 0)) = (byte == 0) := fun byte => Bool.not_not _
  rw [List.takeWhile_eq_take_findIdx_not, List.dropWhile_eq_drop_findIdx_not,
    List.findIdx?_eq_guard_findIdx_lt]
  simp only [hzero]
  have hlength : (bytes.drop position).length = bytes.length - position := List.length_drop
  by_cases hfound : (bytes.drop position).findIdx (· == 0) < (bytes.drop position).length
  · rw [Option.guard, if_pos (decide_eq_true hfound), List.drop_eq_getElem_cons hfound]
    dsimp only
    rw [runAt_lift (slice_eq (Nat.zero_le _) hfound.le), List.length_take_of_le hfound.le]
    generalize (bytes.drop position).findIdx (· == 0) = length at *
    have hrest : (bytes.drop position).drop (length + 1) = bytes.drop (position + (length + 1)) :=
      List.drop_drop
    refine ⟨_, _, rfl, by omega, ?_⟩
    rw [Option.map_some, cursorAt, ← hrest]
    rfl
  · rw [Option.guard, if_neg (by simpa using hfound),
      List.drop_eq_nil_of_le (Nat.le_of_not_lt hfound)]
    exact ⟨_, _, rfl, hposition, rfl⟩

/-! ### Pointers -/

section

variable (checks : Bool) (frame : ExceptionFrame) (bytes : List UInt8)

def unsigned (size : Nat) : Checked UInt64 := return frame.order.value (← take bytes size)

/-- A number is shifted to the top of a word and back, which fills the word with its sign. -/
def signed (size : Nat) : Checked UInt64 := do
  let value ← unsigned frame bytes size
  let shift ← signShift size
  return ((value <<< shift).toInt64 >>> shift.toInt64).toUInt64

def field (encoding : UInt8) : Checked UInt64 :=
  match encoding.toNat % 16 with
  | 0x0 => unsigned frame bytes frame.pointerSize
  | 0x1 => readUnsigned checks bytes
  | 0x2 => unsigned frame bytes 2
  | 0x3 => unsigned frame bytes 4
  | 0x4 => unsigned frame bytes 8
  | 0x9 => return (← readSigned checks bytes).toUInt64
  | 0xa => signed frame bytes 2
  | 0xb => signed frame bytes 4
  | 0xc => unsigned frame bytes 8
  | _ => failure

def pointer (encoding : UInt8) : Checked UInt64 := do
  if encoding = omitted then failure
  let position := frame.address + UInt64.ofNat (← get)
  let value ← field checks frame bytes encoding
  match encoding.toNat / 16 % 8 with
  | 0 => return value
  | 1 => return position + value
  | _ => failure

end

lemma toInt_shiftRight {shift : UInt64} (h : shift.toNat < 64) (number : Int64) :
    (number >>> shift.toInt64).toInt = number.toInt / 2 ^ shift.toNat := by
  have hamount : shift.toInt64.toBitVec.smod 64 = shift.toBitVec := Leb128.smod_64 h
  change (number >>> shift.toInt64).toBitVec.toInt = _
  rw [Int64.toBitVec_shiftRight, hamount, BitVec.sshiftRight_eq',
    BitVec.toInt_sshiftRight, Int.shiftRight_eq_div_pow]
  exact congrArg (number.toInt / ·) (Nat.cast_pow 2 _)

/-- The bits that a number is shifted by come back as copies of its sign. -/
lemma shift_back_eq {size : Nat} (hsize : size = 2 ∨ size = 4) {value shift : UInt64}
    (h : value.toNat < 256 ^ size) (hshift : shift.toNat = 64 - 8 * size) :
    ((value <<< shift).toInt64 >>> shift.toInt64).toUInt64 = signExtend size value := by
  apply UInt64.toNat_inj.mp
  apply Int.ofNat_inj.mp
  have hamount : shift.toNat < 64 := by omega
  rw [toNat_signExtend hsize h, ← Leb128.toInt_emod, toInt_shiftRight hamount, toInt_toInt64,
    UInt64.toNat_shiftLeft, Nat.mod_eq_of_lt hamount, Nat.shiftLeft_eq, Int.bmod_def]
  obtain rfl | rfl := hsize
  · rw [show shift.toNat = 48 from hshift]
    split <;> split <;> omega
  · rw [show shift.toNat = 32 from hshift]
    split <;> split <;> omega

variable {frame : ExceptionFrame}

variable (frame) in
lemma agrees_unsigned (size : Nat) :
    Agrees checks bytes (unsigned frame bytes size) (frame.unsigned size) :=
  (agrees_take size).bind fun _ => .pure _

lemma agrees_signed {size : Nat} (hsize : size = 2 ∨ size = 4) :
    Agrees checks bytes (signed frame bytes size) (frame.signed size) := by
  intro position hposition
  have hshift : signShift size = .ok (UInt64.ofNat (64 - 8 * size)) := by
    obtain rfl | rfl := hsize <;> rfl
  obtain ⟨found, after, hrun, hafter, hreader⟩ :=
    (agrees_unsigned frame size).exists_found hposition
  rw [signed, ExceptionFrame.signed, StateT.run_bind, hreader]
  cases found with
  | none => exact .inl ⟨none, after, runAt_bind_none hrun _, hafter, rfl⟩
  | some value =>
    obtain ⟨-, -, -, hlt⟩ := toNat_of_unsigned_run hsize hreader
    rw [runAt_bind_some hrun]
    refine .inl ⟨some _, after, runAt_lift hshift _ after, hafter, ?_⟩
    rw [shift_back_eq hsize hlt (by obtain rfl | rfl := hsize <;> rfl)]
    rfl

/-- A number of all eight bytes has no bits to be shifted by, and one of more bytes would be a
fault. -/
example : signShift 8 = .ok 0 ∧ signShift 9 = .error (.shift (-8)) := ⟨rfl, rfl⟩

lemma agrees_field (encoding : UInt8) :
    Agrees checks bytes (field checks frame bytes encoding) (frame.field encoding) := by
  unfold field ExceptionFrame.field
  generalize encoding.toNat % 16 = format
  match format with
  | 0x0 | 0x2 | 0x3 | 0x4 | 0xc => exact agrees_unsigned frame _
  | 0x1 => exact agrees_readUnsigned
  | 0x9 => exact agrees_readSigned.bind fun _ => .pure _
  | 0xa => exact agrees_signed (.inl rfl)
  | 0xb => exact agrees_signed (.inr rfl)
  | 0x5 | 0x6 | 0x7 | 0x8 | _ + 0xd => exact .failure

lemma agrees_pointer (encoding : UInt8) :
    Agrees checks bytes (pointer checks frame bytes encoding) (frame.pointer encoding) := by
  unfold pointer ExceptionFrame.pointer
  by_cases homitted : encoding = omitted
  · rw [if_pos homitted, if_pos homitted]
    exact .failure
  · rw [if_neg homitted, if_neg homitted]
    refine .get fun position => (agrees_field encoding).bind fun value => ?_
    generalize encoding.toNat / 16 % 8 = application
    match application with
    | 0 => exact .pure _
    | 1 => exact .pure _
    | _ + 2 => exact .failure

/-! ### Records -/

section

variable (checks : Bool) (frame : ExceptionFrame) (bytes : List UInt8)

def augmentation (entry : CommonEntry) : List UInt8 → Checked CommonEntry
  | [] => return entry
  | letter :: letters =>
    if letter = 'R'.toUInt8 then do
      augmentation { entry with frameEncoding := ← byte bytes } letters
    else if letter = 'L'.toUInt8 then do
      augmentation { entry with dataEncoding := ← byte bytes } letters
    else if letter = 'P'.toUInt8 then do
      let _ ← pointer checks frame bytes (← byte bytes)
      augmentation entry letters
    else if letter = 'S'.toUInt8 ∨ letter = 'B'.toUInt8 then augmentation entry letters
    else return entry

def returnRegister (version : UInt8) : Checked Unit :=
  if version = 1 then discard (byte bytes) else discard (readUnsigned checks bytes)

def commonEntry (offset : Nat) : Checked CommonEntry := do
  let version ← byte bytes
  let letters ← terminated bytes
  let _codeAlignment ← readUnsigned checks bytes
  let _dataAlignment ← readSigned checks bytes
  returnRegister checks bytes version
  if letters.head? = some 'z'.toUInt8 then do
    let _length ← readUnsigned checks bytes
    let announced ← slice letters 1 letters.length
    augmentation checks frame bytes { offset } announced
  else return { offset }

def frameEntry (known : List CommonEntry) (body : Nat) (distance : UInt64) : Checked Entry := do
  if body < distance.toNat then failure
  match known.find? (·.offset = body - distance.toNat) with
  | none => failure
  | some entry =>
    both (fun start size => .frame start (start + size))
      (pointer checks frame bytes entry.frameEncoding)
      (pointer checks frame bytes (entry.frameEncoding &&& 0x0f))

def recordFields (known : List CommonEntry) (start body : Nat) (distance : UInt64) :
    Checked Entry :=
  if distance = 0 then Entry.common <$> commonEntry checks frame bytes start
  else frameEntry checks frame bytes known body distance

/-- The record at a place and the place where the next one starts. -/
def record (known : List CommonEntry) : Checked (Entry × Nat) := do
  let start ← get
  let length ← unsigned frame bytes 4
  let body ← get
  if length = 0 ∨ length = 0xffffffff ∨ bytes.length < body + length.toNat then failure
  let distance ← unsigned frame bytes 4
  let entry ← recordFields checks frame bytes known start body distance
  return (entry, body + length.toNat)

end

lemma agrees_augmentation (letters : List UInt8) (entry : CommonEntry) :
    Agrees checks bytes (augmentation checks frame bytes entry letters)
      (frame.augmentation entry letters) := by
  induction letters generalizing entry with
  | nil => exact .pure entry
  | cons letter letters ih =>
    rw [augmentation, ExceptionFrame.augmentation]
    by_cases hencoding : letter = 'R'.toUInt8
    · rw [if_pos hencoding, if_pos hencoding]
      exact agrees_byte.bind fun _ => ih _
    rw [if_neg hencoding, if_neg hencoding]
    by_cases hdata : letter = 'L'.toUInt8
    · rw [if_pos hdata, if_pos hdata]
      exact agrees_byte.bind fun _ => ih _
    rw [if_neg hdata, if_neg hdata]
    by_cases hpersonality : letter = 'P'.toUInt8
    · rw [if_pos hpersonality, if_pos hpersonality]
      exact agrees_byte.bind fun _ => (agrees_pointer _).bind fun _ => ih entry
    rw [if_neg hpersonality, if_neg hpersonality]
    by_cases hflag : letter = 'S'.toUInt8 ∨ letter = 'B'.toUInt8
    · rw [if_pos hflag, if_pos hflag]
      exact ih entry
    · rw [if_neg hflag, if_neg hflag]
      exact .pure entry

lemma agrees_returnRegister (version : UInt8) :
    Agrees checks bytes (returnRegister checks bytes version)
      (ExceptionFrame.returnRegister version) := by
  unfold returnRegister ExceptionFrame.returnRegister
  by_cases hfirst : version = 1
  · rw [if_pos hfirst, if_pos hfirst]
    exact agrees_byte.map _
  · rw [if_neg hfirst, if_neg hfirst]
    exact agrees_readUnsigned.map _

lemma agrees_commonEntry (offset : Nat) :
    Agrees checks bytes (commonEntry checks frame bytes offset) (frame.commonEntry offset) := by
  refine agrees_byte.bind fun version => agrees_terminated.bind fun letters => ?_
  refine agrees_readUnsigned.bind fun _ => agrees_readSigned.bind fun _ => ?_
  refine (agrees_returnRegister version).bind fun _ => ?_
  cases letters with
  | nil => exact .pure _
  | cons letter letters =>
    dsimp only
    by_cases hdata : letter = 'z'.toUInt8
    · have hhead : (letter :: letters).head? = some 'z'.toUInt8 := congrArg some hdata
      rw [if_pos hhead, if_pos hdata]
      have hslice : slice (letter :: letters) 1 (letter :: letters).length = .ok letters := by
        rw [slice_eq (by simp) le_rfl]
        simp
      exact agrees_readUnsigned.bind fun _ => .lift hslice (agrees_augmentation letters _)
    · have hhead : (letter :: letters).head? ≠ some 'z'.toUInt8 :=
        fun hsome => hdata (Option.some.inj hsome)
      rw [if_neg hhead, if_neg hdata]
      exact .pure _

/-- Where the first value is missed, the second one is read for nothing. -/
lemma agrees_both {first second : Checked α} {reader reader' : Reader α} (compute : α → α → β)
    (hfirst : Agrees checks bytes first reader) (hsecond : Agrees checks bytes second reader') :
    Agrees checks bytes (both compute first second) (do return compute (← reader) (← reader')) := by
  intro position hposition
  obtain ⟨found, after, hrun, hafter, hreader⟩ | ⟨hfault, hmay⟩ := hfirst position hposition
  rotate_left
  · exact .inr ⟨runAt_attempt_error hfault _, hmay⟩
  obtain ⟨found', after', hrun', hafter', hreader'⟩ | ⟨hfault, hmay⟩ := hsecond after hafter
  rotate_left
  · refine .inr ⟨?_, hmay⟩
    rw [both, runAt_attempt hrun]
    exact runAt_attempt_error hfault _
  rw [both, runAt_attempt hrun, runAt_attempt hrun', StateT.run_bind, hreader]
  cases found with
  | none => exact .inl ⟨none, after', rfl, hafter', rfl⟩
  | some x =>
    refine .inl ⟨found'.map (compute x), after', ?_, hafter', ?_⟩
    · cases found' <;> rfl
    · change (reader'.run (cursorAt bytes after)).bind _ = _
      rw [hreader']
      cases found' <;> rfl

lemma agrees_frameEntry (known : List CommonEntry) (body : Nat) (distance : UInt64) :
    Agrees checks bytes (frameEntry checks frame bytes known body distance)
      (frame.frameEntry known body distance) := by
  unfold frameEntry ExceptionFrame.frameEntry
  by_cases hbefore : body < distance.toNat
  · rw [if_pos hbefore, if_pos hbefore]
    exact .failure
  · rw [if_neg hbefore, if_neg hbefore]
    cases known.find? (·.offset = body - distance.toNat) with
    | none => exact .failure
    | some entry =>
      exact agrees_both (fun start size => Entry.frame start (start + size)) (agrees_pointer _)
        (agrees_pointer _)

variable (checks) in
lemma agrees_recordFields (known : List CommonEntry) (start body : Nat) (distance : UInt64) :
    Agrees checks bytes (recordFields checks frame bytes known start body distance)
      (frame.recordFields known start body distance) := by
  unfold recordFields ExceptionFrame.recordFields
  by_cases hzero : distance = 0
  · rw [if_pos hzero, if_pos hzero]
    exact (agrees_commonEntry start).map Entry.common
  · rw [if_neg hzero, if_neg hzero]
    exact agrees_frameEntry known body distance

lemma properLength_cursorAt_iff {body : Nat} (hbody : body ≤ bytes.length) (length : UInt64) :
    ProperLength (cursorAt bytes body) length ↔
      ¬ (length = 0 ∨ length = 0xffffffff ∨ bytes.length < body + length.toNat) := by
  have hrest : (cursorAt bytes body).rest.length = bytes.length - body := List.length_drop
  rw [ProperLength, hrest, not_or, not_or]
  exact and_congr_right' (and_congr_right' (by omega))

variable (checks frame) in
/-- A record is read alike by places and from the bytes that are left, unless a sum is a fault. -/
lemma record_agrees (known : List CommonEntry) {position : Nat} (h : position ≤ bytes.length) :
    (∃ found after, (record checks frame bytes known).runAt position = .ok (found, after) ∧
      frame.record known (cursorAt bytes position) =
        found.map fun (entry, next) => (entry, cursorAt bytes next)) ∨
    (record checks frame bytes known).runAt position = .error .overflow ∧
      MayOverflow checks bytes := by
  obtain ⟨length?, body, hrun, hbody, hread⟩ := (agrees_unsigned frame 4).exists_found h
  rw [record_eq, hread, record, runAt_get]
  cases length? with
  | none => exact .inl ⟨none, body, runAt_bind_none hrun _, rfl⟩
  | some length =>
    rw [runAt_bind_some hrun, runAt_get, Option.map_some, Option.bind_some]
    dsimp only
    have hproper := properLength_cursorAt_iff hbody length
    by_cases hstop : length = 0 ∨ length = 0xffffffff ∨ bytes.length < body + length.toNat
    · rw [if_pos hstop, if_neg (hproper.not.mpr (not_not_intro hstop))]
      exact .inl ⟨none, body, rfl, rfl⟩
    · rw [if_neg hstop, if_pos (hproper.mpr hstop)]
      obtain ⟨distance?, fields, hrun', hfields, hread'⟩ :=
        (agrees_unsigned frame 4).exists_found hbody
      rw [hread']
      cases distance? with
      | none => exact .inl ⟨none, fields, runAt_bind_none hrun' _, rfl⟩
      | some distance =>
        rw [runAt_bind_some hrun', Option.map_some, Option.bind_some]
        obtain ⟨result, after, hrun'', -, hread''⟩ | ⟨hfault, hmay⟩ :=
          agrees_recordFields checks known position body distance fields hfields
        · refine .inl ?_
          change ∃ _ _, _ ∧ ((frame.recordFields known position body distance).run _).map _ = _
          rw [hread'']
          cases result with
          | none => exact ⟨none, after, runAt_bind_none hrun'' _, rfl⟩
          | some entry =>
            refine ⟨_, after, runAt_bind_some hrun'' _, ?_⟩
            rw [Option.map_some, Option.map_some, Option.map_some, skip_cursorAt]
        · exact .inr ⟨runAt_bind_error hfault _, hmay⟩

/-! ### The walk -/

/-- What a walk has found so far. -/
structure Found where
  common : List CommonEntry := []
  ranges : List (UInt64 × UInt64) := []
deriving DecidableEq

def Found.add (found : Found) : Entry → Found
  | .common entry => { found with common := found.common ++ [entry] }
  | .frame start limit => { found with ranges := found.ranges ++ [(start, limit)] }

lemma learn_common (found : Found) (entry : Entry) :
    learn found.common entry = (found.add entry).common := by
  cases entry <;> rfl

/-- Every record that is read takes the walk further on in the section. -/
lemma lt_of_record {known : List CommonEntry} {position next after : Nat} {entry : Entry}
    (hposition : position ≤ bytes.length)
    (h : (record checks frame bytes known).runAt position = .ok (some (entry, next), after)) :
    position < next ∧ next ≤ bytes.length := by
  obtain ⟨found, after', hrun, hrecord⟩ | ⟨hfault, -⟩ :=
    record_agrees checks frame known hposition
  rotate_left
  · cases h.symm.trans hfault
  cases h.symm.trans hrun
  obtain ⟨length, distance, hlaid, hnext⟩ := record_eq_some_iff.mp hrecord
  have hplace : next = position + (4 + length.toNat) := congrArg Cursor.offset hnext
  have hroom : 4 + length.toNat ≤ (bytes.drop position).length := hlaid.length_le
  rw [List.length_drop] at hroom
  omega

section

variable (checks : Bool) (frame : ExceptionFrame) (bytes : List UInt8)

def walkFrom (found : Found) (position : Nat) : Except Fault Found :=
  if _hroom : position + 4 ≤ bytes.length then
    match _hrecord : (record checks frame bytes found.common).runAt position with
    | .error fault => .error fault
    | .ok (none, _) => .ok found
    | .ok (some (entry, next), _) => walkFrom (found.add entry) next
  else .ok found
termination_by bytes.length - position
decreasing_by
  have hbounds := lt_of_record (Nat.le_of_add_right_le _hroom) _hrecord
  omega

/-- A walk over a whole section. -/
def walk : Except Fault Found := walkFrom checks frame bytes {} 0

end

lemma record_of_short {known : List CommonEntry} {position : Nat}
    (h : ¬ position + 4 ≤ bytes.length) :
    frame.record known (cursorAt bytes position) = none := by
  cases hrecord : frame.record known (cursorAt bytes position) with
  | none => rfl
  | some read =>
    obtain ⟨length, distance, hlaid, -⟩ := record_eq_some_iff.mp hrecord
    have hlength : 4 + length.toNat ≤ (bytes.drop position).length := hlaid.length_le
    rw [List.length_drop] at hlength
    omega

lemma walkFrom_cases {fuel : Nat} {found : Found} {position : Nat}
    (hposition : position ≤ bytes.length) (hfuel : bytes.length - position ≤ fuel) :
    walkFrom checks frame bytes found position =
        .ok ((frame.recordsFrom fuel found.common (cursorAt bytes position)).foldl
          Found.add found) ∨
      walkFrom checks frame bytes found position = .error .overflow ∧
        MayOverflow checks bytes := by
  induction fuel generalizing found position with
  | zero =>
    rw [walkFrom, dif_neg (by omega)]
    exact .inl rfl
  | succ fuel ih =>
    rw [recordsFrom, walkFrom]
    by_cases hroom : position + 4 ≤ bytes.length
    · rw [dif_pos hroom]
      obtain ⟨read, after, hrun, hrecord⟩ | ⟨hfault, hmay⟩ :=
        record_agrees checks frame found.common hposition
      · rw [hrecord]
        split
        · next h => cases h.symm.trans hrun
        · next h =>
          cases h.symm.trans hrun
          exact .inl rfl
        · next entry next after' h =>
          cases h.symm.trans hrun
          have hbounds := lt_of_record hposition h
          have hlater := @ih (found.add entry) next hbounds.2 (by omega)
          rwa [← learn_common] at hlater
      · split
        · next h =>
          cases h.symm.trans hfault
          exact .inr ⟨rfl, hmay⟩
        · next h => cases h.symm.trans hfault
        · next h => cases h.symm.trans hfault
    · rw [dif_neg hroom, record_of_short hroom]
      exact .inl rfl

/-- A walk over a section finds what the records say, or a sum is a fault. -/
lemma walk_cases (checks : Bool) (frame : ExceptionFrame) (bytes : List UInt8) :
    walk checks frame bytes = .ok ((frame.records bytes).foldl Found.add {}) ∨
      walk checks frame bytes = .error .overflow ∧ MayOverflow checks bytes :=
  walkFrom_cases (Nat.zero_le _) le_rfl

/-- Without checked sums the walk ends without a fault on every section. -/
lemma walk_eq (frame : ExceptionFrame) (bytes : List UInt8) :
    walk false frame bytes = .ok ((frame.records bytes).foldl Found.add {}) := by
  obtain hfound | ⟨-, hchecks, -⟩ := walk_cases false frame bytes
  · exact hfound
  · cases hchecks

end Checked
end BinaryFacts.ExceptionFrame
