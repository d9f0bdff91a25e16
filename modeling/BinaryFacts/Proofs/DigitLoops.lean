import BinaryFacts.Proofs.FoundBytes
import BinaryFacts.Proofs.NumberBytes
import Mathlib.Tactic.Ring

/-!
# LEB128 numbers read digit by digit

What the loops read that put together a LEB128 number in a word: the digits up to the first byte
with a clear top bit, and the number that the digits spell modulo `2 ^ 64`, as long as the count of
bits, a word of 32 bits, does not overflow.
-/

namespace BinaryFacts

open ExceptionFrame (Cursor Reader)

namespace Leb128

/-- The number with the digits entered one behind the other. -/
def enterAll {ω : Type} (enter : ω → UInt32 → UInt8 → ω) (number : ω) (shift : UInt32) :
    List UInt8 → ω
  | [] => number
  | byte :: rest => enterAll enter (enter number shift byte) (shift + 7) rest

/-! ### The digits that are read -/

lemma forall_byte {P : UInt8 → Prop} (h : ∀ n < 256, P (UInt8.ofNat n)) (byte : UInt8) :
    P byte := by
  rw [← UInt8.ofNat_toNat (x := byte)]
  exact h byte.toNat byte.toNat_lt

lemma topBit_eq_zero_iff (byte : UInt8) : byte &&& 0x80 = 0 ↔ isLast byte = true :=
  forall_byte (P := fun byte => byte &&& 0x80 = 0 ↔ isLast byte = true) (by decide +kernel) byte

lemma signBit_ne_zero_iff (byte : UInt8) : byte &&& 0x40 ≠ 0 ↔ 64 ≤ byte.toNat % 128 :=
  forall_byte (P := fun byte => byte &&& 0x40 ≠ 0 ↔ 64 ≤ byte.toNat % 128) (by decide +kernel) byte

lemma toNat_lowBits (byte : UInt8) : (byte &&& 0x7f).toUInt64.toNat = byte.toNat % 128 := by
  rw [UInt8.toNat_toUInt64, UInt8.toNat_and]
  exact Nat.and_two_pow_sub_one_eq_mod byte.toNat 7

section

variable {ω : Type} (enter finish : ω → UInt32 → UInt8 → ω) (number : ω) (shift : UInt32)
  (offset : Nat)

lemma loop_eq_none_iff {bytes : List UInt8} :
    loop enter finish number shift offset bytes = none ↔
      ∀ byte ∈ bytes, isLast byte = false := by
  induction bytes generalizing number shift offset with
  | nil => exact iff_of_true rfl nofun
  | cons byte rest ih =>
    rw [loop, List.forall_mem_cons]
    by_cases hlast : isLast byte = true
    · rw [if_pos ((topBit_eq_zero_iff byte).mpr hlast), hlast]
      exact iff_of_false nofun nofun
    · rw [if_neg (mt (topBit_eq_zero_iff byte).mp hlast), ih]
      exact (and_iff_right (Bool.eq_false_of_not_eq_true hlast)).symm

/-- The loop takes the digits up to the first last one, and leaves what follows it. -/
lemma loop_digits {more : List UInt8} (hmore : ∀ byte ∈ more, isLast byte = false) {last : UInt8}
    (hlast : isLast last = true) (rest : List UInt8) :
    loop enter finish number shift offset (more ++ last :: rest) =
      some (finish (enterAll enter number shift (more ++ [last]))
        (shift + 7 * UInt32.ofNat (more.length + 1)) last,
        ⟨offset + (more.length + 1), rest⟩) := by
  induction more generalizing number shift offset with
  | nil =>
    rw [List.nil_append, loop]
    exact if_pos ((topBit_eq_zero_iff last).mpr hlast)
  | cons byte more ih =>
    obtain ⟨hbyte, hmore⟩ := List.forall_mem_cons.mp hmore
    have htop : ¬ byte &&& 0x80 = 0 := by
      rw [topBit_eq_zero_iff, hbyte]
      exact Bool.false_ne_true
    have hshift : shift + 7 + 7 * UInt32.ofNat (more.length + 1) =
        shift + 7 * UInt32.ofNat ((byte :: more).length + 1) := by
      rw [List.length_cons, UInt32.ofNat_add (more.length + 1) 1, UInt32.mul_add, UInt32.add_assoc,
        UInt32.add_comm 7]
      rfl
    have hoffset : offset + 1 + (more.length + 1) = offset + ((byte :: more).length + 1) := by
      rw [List.length_cons]
      omega
    rw [List.cons_append, loop, if_neg htop, ih _ _ _ hmore, hshift, hoffset]
    rfl

end

/-- A number is split off as its digits up to the first last one. -/
lemma exists_of_split? {bytes digits rest : List UInt8} (h : split? bytes = some (digits, rest)) :
    ∃ more last, digits = more ++ [last] ∧ bytes = more ++ last :: rest ∧
      (∀ byte ∈ more, isLast byte = false) ∧ isLast last = true := by
  induction bytes generalizing digits with
  | nil => cases h
  | cons byte bytes ih =>
    rw [split?] at h
    by_cases hlast : isLast byte = true
    · rw [if_pos hlast] at h
      cases h
      exact ⟨[], byte, rfl, rfl, List.forall_mem_nil _, hlast⟩
    · rw [if_neg hlast] at h
      obtain ⟨⟨tail, after⟩, htail, heq⟩ := Option.map_eq_some_iff.mp h
      cases heq
      obtain ⟨more, last, rfl, rfl, hmore, hend⟩ := ih htail
      exact ⟨byte :: more, last, rfl, rfl,
        List.forall_mem_cons.mpr ⟨Bool.eq_false_of_not_eq_true hlast, hmore⟩, hend⟩

/-- A loop that ends has read digits up to the first last one. -/
lemma exists_of_loop {ω : Type} {enter finish : ω → UInt32 → UInt8 → ω} {number result : ω}
    {shift : UInt32} {offset : Nat} {bytes : List UInt8} {after : Cursor}
    (h : loop enter finish number shift offset bytes = some (result, after)) :
    ∃ more last, bytes = more ++ last :: after.rest ∧ (∀ byte ∈ more, isLast byte = false) ∧
      isLast last = true := by
  cases hsplit : split? bytes with
  | none => cases h.symm.trans ((loop_eq_none_iff _ _ _ _ _).mpr (split?_eq_none_iff.mp hsplit))
  | some found =>
    obtain ⟨more, last, -, rfl, hmore, hlast⟩ := exists_of_split? hsplit
    rw [loop_digits _ _ _ _ _ hmore hlast] at h
    cases h
    exact ⟨more, last, rfl, hmore, hlast⟩

/-! ### The number that they spell -/

lemma magnitude_lt (digits : List UInt8) : magnitude digits < 2 ^ (7 * digits.length) := by
  induction digits with
  | nil => exact Nat.one_pos
  | cons byte rest ih =>
    have hbyte : byte.toNat % 128 < 128 := Nat.mod_lt _ (by decide)
    rw [magnitude, List.length_cons, Nat.mul_succ, pow_add]
    omega

lemma lt_64_iff {shift : UInt32} : shift < 64 ↔ shift.toNat < 64 := UInt32.lt_iff_toNat_lt

/-- A digit is added at its place, which is free. -/
lemma toNat_enter {number : UInt64} {shift : UInt32} (h : number.toNat < 2 ^ shift.toNat)
    (byte : UInt8) : (enter number shift byte).toNat =
      (number.toNat + 2 ^ shift.toNat * (byte.toNat % 128)) % 2 ^ 64 := by
  unfold enter
  by_cases hshift : shift.toNat < 64
  · have hword : 2 ^ 64 = 2 ^ shift.toNat * 2 ^ (64 - shift.toNat) := by
      rw [← pow_add, Nat.add_sub_cancel' hshift.le]
    have hplace : number.toNat / 2 ^ shift.toNat = 0 := Nat.div_eq_of_lt h
    rw [if_pos (lt_64_iff.mpr hshift), UInt64.toNat_or, UInt64.toNat_shiftLeft, toNat_lowBits,
      UInt32.toNat_toUInt64, Nat.mod_eq_of_lt hshift, Nat.shiftLeft_eq, Nat.mul_comm, hword,
      Nat.mul_mod_mul_left, Nat.or_comm, ← Nat.two_pow_add_eq_or_of_lt h, Nat.mod_mul,
      Nat.add_mul_mod_self_left, Nat.mod_eq_of_lt h, Nat.add_mul_div_left _ _ (Nat.two_pow_pos _),
      hplace, Nat.zero_add, Nat.add_comm]
  · have hbeyond : 2 ^ shift.toNat = 2 ^ 64 * 2 ^ (shift.toNat - 64) := by
      rw [← pow_add, Nat.add_sub_cancel' (Nat.le_of_not_lt hshift)]
    rw [if_neg (mt lt_64_iff.mp hshift), hbeyond, Nat.mul_assoc, Nat.add_mul_mod_self_left,
      Nat.mod_eq_of_lt number.toNat_lt]

lemma enter_lt {number : UInt64} {shift : UInt32} (h : number.toNat < 2 ^ shift.toNat)
    (byte : UInt8) : (enter number shift byte).toNat < 2 ^ (shift.toNat + 7) := by
  have hbyte : byte.toNat % 128 < 128 := Nat.mod_lt _ (by decide)
  have hle := Nat.mod_le (number.toNat + 2 ^ shift.toNat * (byte.toNat % 128)) (2 ^ 64)
  have hdigit := Nat.mul_le_mul_left (2 ^ shift.toNat) (Nat.le_sub_one_of_lt hbyte)
  rw [toNat_enter h, pow_add]
  omega

lemma toNat_add_seven {shift : UInt32} {count : Nat} (h : shift.toNat + 7 * (count + 1) < 2 ^ 32) :
    (shift + 7).toNat = shift.toNat + 7 := by
  rw [UInt32.toNat_add]
  exact Nat.mod_eq_of_lt (by change shift.toNat + 7 < _; omega)

/-- Digits entered in turn are added, each at its place, as long as the count of bits is right. -/
lemma toNat_enterAll {number : UInt64} {shift : UInt32} (h : number.toNat < 2 ^ shift.toNat)
    {digits : List UInt8} (hcount : shift.toNat + 7 * digits.length < 2 ^ 32) :
    (enterAll enter number shift digits).toNat =
      (number.toNat + 2 ^ shift.toNat * magnitude digits) % 2 ^ 64 := by
  induction digits generalizing number shift with
  | nil =>
    rw [enterAll, magnitude, Nat.mul_zero, Nat.add_zero, Nat.mod_eq_of_lt number.toNat_lt]
  | cons byte rest ih =>
    rw [List.length_cons] at hcount
    have hshift := toNat_add_seven hcount
    have hlt : (enter number shift byte).toNat < 2 ^ (shift + 7).toNat := by
      rw [hshift]
      exact enter_lt h byte
    rw [enterAll, ih hlt (by omega), toNat_enter h, hshift, Nat.mod_add_mod, magnitude, pow_add]
    congr 1
    ring

/-! ### Signed numbers -/

lemma smod_64 {amount : BitVec 64} (h : amount.toNat < 64) : amount.smod 64 = amount := by
  have hsign : amount.msb = false := by
    rw [BitVec.msb_eq_false_iff_two_mul_lt]
    omega
  apply BitVec.eq_of_toInt_eq
  rw [BitVec.toInt_smod, BitVec.toInt_eq_toNat_of_msb hsign]
  exact Int.fmod_eq_of_lt (Int.natCast_nonneg _) (Int.ofNat_lt.mpr h)

/-- A signed word is shifted like the word of the same bits. -/
lemma toUInt64_shiftLeft {shift : UInt32} (h : shift.toNat < 64) (word : UInt64) :
    (word.toInt64 <<< shift.toUInt64.toInt64).toUInt64 = word <<< shift.toUInt64 := by
  have hamount : shift.toUInt64.toInt64.toBitVec.toNat = shift.toNat :=
    UInt32.toNat_toUInt64 shift
  apply UInt64.toNat_inj.mp
  change (word.toInt64 <<< shift.toUInt64.toInt64).toBitVec.toNat = _
  rw [Int64.toBitVec_shiftLeft, smod_64 (hamount.trans_lt h), BitVec.shiftLeft_eq',
    BitVec.toNat_shiftLeft, hamount, UInt64.toNat_shiftLeft, UInt32.toNat_toUInt64,
    Nat.mod_eq_of_lt h]
  rfl

lemma toUInt64_enterSigned (number : Int64) (shift : UInt32) (byte : UInt8) :
    (enterSigned number shift byte).toUInt64 = enter number.toUInt64 shift byte := by
  unfold enterSigned enter
  by_cases hshift : shift < 64
  · rw [if_pos hshift, if_pos hshift, ← toUInt64_shiftLeft (lt_64_iff.mp hshift)]
    rfl
  · rw [if_neg hshift, if_neg hshift]

lemma toUInt64_enterAll (number : Int64) (shift : UInt32) (digits : List UInt8) :
    (enterAll enterSigned number shift digits).toUInt64 =
      enterAll enter number.toUInt64 shift digits := by
  induction digits generalizing number shift with
  | nil => rfl
  | cons byte rest ih => rw [enterAll, enterAll, ih, toUInt64_enterSigned]

/-- All bits from a place on are the word less what stands before the place. -/
lemma toNat_allOnes_shiftLeft {shift : UInt32} (h : shift.toNat < 64) :
    (UInt64.ofNat (2 ^ 64 - 1) <<< shift.toUInt64).toNat = 2 ^ 64 - 2 ^ shift.toNat := by
  have hpos : 0 < 2 ^ shift.toNat := Nat.two_pow_pos _
  have hlt : 2 ^ shift.toNat < 2 ^ 64 := Nat.pow_lt_pow_right (by decide) h
  rw [UInt64.toNat_shiftLeft, UInt32.toNat_toUInt64, Nat.mod_eq_of_lt h, Nat.shiftLeft_eq]
  generalize 2 ^ shift.toNat = place at *
  obtain ⟨before, rfl⟩ : ∃ before, place = before + 1 := ⟨place - 1, by omega⟩
  have hones : (UInt64.ofNat (2 ^ 64 - 1)).toNat * (before + 1) =
      2 ^ 64 * before + (2 ^ 64 - (before + 1)) := by
    change (2 ^ 64 - 1) * (before + 1) = _
    omega
  rw [hones, Nat.mul_add_mod, Nat.mod_eq_of_lt (by omega)]

/-- Where the sign bit is set, the number goes down by the range of its digits. -/
lemma toNat_extendSign {number : Int64} {shift : UInt32}
    (h : number.toUInt64.toNat < 2 ^ shift.toNat) (last : UInt8) :
    ((extendSign number shift last).toUInt64.toNat : Int) =
      (number.toUInt64.toNat - if 64 ≤ last.toNat % 128 then 2 ^ shift.toNat else 0) % 2 ^ 64 := by
  have hword := number.toUInt64.toNat_lt
  unfold extendSign
  by_cases hsign : 64 ≤ last.toNat % 128
  · rw [if_pos hsign]
    by_cases hshift : shift.toNat < 64
    · have hspan : 2 ^ 64 - 2 ^ shift.toNat = 2 ^ shift.toNat * (2 ^ (64 - shift.toNat) - 1) := by
        rw [Nat.mul_sub, ← pow_add, Nat.add_sub_cancel' hshift.le, Nat.mul_one]
      have hlt : 2 ^ shift.toNat < 2 ^ 64 := Nat.pow_lt_pow_right (by decide) hshift
      have hbits : (number ||| (-1) <<< shift.toUInt64.toInt64).toUInt64.toNat =
          2 ^ 64 - 2 ^ shift.toNat + number.toUInt64.toNat := by
        change (number.toUInt64 |||
          ((UInt64.ofNat (2 ^ 64 - 1)).toInt64 <<< shift.toUInt64.toInt64).toUInt64).toNat = _
        rw [toUInt64_shiftLeft hshift, UInt64.toNat_or, toNat_allOnes_shiftLeft hshift, hspan,
          Nat.or_comm, Nat.two_pow_add_eq_or_of_lt h]
      have hcast : (2 : Int) ^ shift.toNat = (2 ^ shift.toNat : Nat) := (Nat.cast_pow 2 _).symm
      rw [if_pos ⟨lt_64_iff.mpr hshift, (signBit_ne_zero_iff last).mpr hsign⟩, hbits, hcast]
      omega
    · have hbeyond : (2 : Int) ^ shift.toNat = 2 ^ 64 * 2 ^ (shift.toNat - 64) := by
        rw [← pow_add, Nat.add_sub_cancel' (Nat.le_of_not_lt hshift)]
      rw [if_neg fun h => hshift (lt_64_iff.mp h.1), hbeyond, Int.sub_mul_emod_self_left]
      omega
  · rw [if_neg hsign, if_neg fun h => hsign ((signBit_ne_zero_iff last).mp h.2)]
    omega

/-! ### What the loops give -/

/-- The sum of the digits, each times its place value. -/
def weightedSum (digits : List UInt8) : Nat :=
  (digits.mapIdx fun place byte => byte.toNat % 128 * 2 ^ (7 * place)).sum

lemma weightedSum_eq (digits : List UInt8) : weightedSum digits = magnitude digits := by
  have hfrom : ∀ start, (digits.mapIdx fun place byte =>
      byte.toNat % 128 * 2 ^ (7 * (place + start))).sum = 2 ^ (7 * start) * magnitude digits := by
    induction digits with
    | nil => exact fun _ => rfl
    | cons byte rest ih =>
      intro start
      have hrest := ih (start + 1)
      simp only [List.mapIdx_cons, List.sum_cons, magnitude, Nat.zero_add, Nat.add_right_comm _ 1,
        Nat.add_assoc] at hrest ⊢
      rw [hrest, Nat.mul_succ, pow_add]
      ring
  have hzero := hfrom 0
  rwa [Nat.mul_zero, pow_zero, Nat.one_mul] at hzero

/-- A signed word modulo `2 ^ 64` is the word of the same bits. -/
lemma toInt_emod (number : Int64) : number.toInt % 2 ^ 64 = number.toUInt64.toNat := by
  have hword := number.toUInt64.toNat_lt
  have hint : number.toInt = number.toUInt64.toInt64.toInt := rfl
  rw [hint, toInt_toInt64]
  split <;> omega

lemma eq_ofInt_of_emod {number : Int64} {value : Int}
    (h : number.toInt % 2 ^ 64 = value % 2 ^ 64) : number = Int64.ofInt value := by
  rw [← Int64.ofInt_toInt number]
  apply Int64.toInt_inj.mp
  rw [Int64.toInt_ofInt, Int64.toInt_ofInt, ← Int.emod_bmod number.toInt, ← Int.emod_bmod value]
  exact congrArg (Int.bmod · Int64.size) h

lemma isLast_eq_false_iff {byte : UInt8} : isLast byte = false ↔ 128 ≤ byte.toNat := by
  rw [isLast, decide_eq_false_iff_not, Nat.not_lt]

section

variable {more : List UInt8} {last : UInt8} (hmore : ∀ byte ∈ more, isLast byte = false)
  (hlast : isLast last = true) (offset : Nat) (rest : List UInt8)

include hmore hlast

lemma readUnsigned_digits : readUnsigned.run ⟨offset, more ++ last :: rest⟩ =
    some (enterAll enter 0 0 (more ++ [last]), ⟨offset + (more.length + 1), rest⟩) :=
  loop_digits _ _ _ _ _ hmore hlast rest

lemma readSigned_digits : readSigned.run ⟨offset, more ++ last :: rest⟩ =
    some (extendSign (enterAll enterSigned 0 0 (more ++ [last]))
      (0 + 7 * UInt32.ofNat (more.length + 1)) last, ⟨offset + (more.length + 1), rest⟩) :=
  loop_digits _ _ _ _ _ hmore hlast rest

end

/-- The count of bits at the end of digits, as long as it is right. -/
lemma toNat_shift_end {count : Nat} (h : 7 * count < 2 ^ 32) :
    ((0 : UInt32) + 7 * UInt32.ofNat count).toNat = 7 * count := by
  rw [UInt32.zero_add, UInt32.toNat_mul, UInt32.toNat_ofNat']
  change 7 * (count % 2 ^ 32) % 2 ^ 32 = _
  omega

lemma toNat_entered {digits : List UInt8} (h : 7 * digits.length < 2 ^ 32) :
    (enterAll enter 0 0 digits).toNat = magnitude digits % 2 ^ 64 := by
  have hfits : (0 : UInt32).toNat + 7 * digits.length < 2 ^ 32 := by
    change 0 + _ < _
    omega
  have hempty : (0 : UInt64).toNat < 2 ^ (0 : UInt32).toNat := Nat.one_pos
  have hvalue := toNat_enterAll hempty hfits
  change _ = (0 + 1 * magnitude digits) % 2 ^ 64 at hvalue
  rwa [Nat.zero_add, Nat.one_mul] at hvalue

lemma toInt_extended {more : List UInt8} {last : UInt8} (h : 7 * (more.length + 1) < 2 ^ 32) :
    (extendSign (enterAll enterSigned 0 0 (more ++ [last]))
      (0 + 7 * UInt32.ofNat (more.length + 1)) last).toInt % 2 ^ 64 =
      (magnitude (more ++ [last]) -
        if 64 ≤ last.toNat % 128 then 2 ^ (7 * (more.length + 1)) else 0) % 2 ^ 64 := by
  have hlength : (more ++ [last]).length = more.length + 1 := List.length_append
  have hshift := toNat_shift_end h
  have hentered : (enterAll enterSigned 0 0 (more ++ [last])).toUInt64.toNat =
      magnitude (more ++ [last]) % 2 ^ 64 := by
    rw [toUInt64_enterAll]
    exact toNat_entered (by rwa [hlength])
  have hbound := magnitude_lt (more ++ [last])
  rw [hlength] at hbound
  rw [toInt_emod, toNat_extendSign (by
    rw [hshift, hentered]
    exact (Nat.mod_le _ _).trans_lt hbound), hshift, hentered]
  push_cast
  rw [Int.emod_sub_emod]

lemma signedValue_digits (more : List UInt8) (last : UInt8) :
    signedValue (more ++ [last]) = (magnitude (more ++ [last]) : Int) -
      if 64 ≤ last.toNat % 128 then 2 ^ (7 * (more.length + 1)) else 0 := by
  have hsign : isNegative (more ++ [last]) = decide (64 ≤ last.toNat % 128) := by
    rw [isNegative, List.getLast?_concat]
  rw [signedValue, hsign, List.length_append, Nat.one_shiftLeft]
  by_cases hlast : 64 ≤ last.toNat % 128
  · rw [if_pos (decide_eq_true hlast), if_pos hlast]
    push_cast
    rfl
  · rw [if_neg (by simpa using hlast), if_neg hlast, Int.sub_zero]

lemma reads_leb128 (offset more value : Nat) :
    Reader.leb128.Reads offset (digits more value) (digits more value) := by
  intro rest
  show Reader.leb128 ⟨offset, digits more value ++ rest⟩ = _
  unfold Reader.leb128
  rw [split?_digits_append]
  rfl

/-- On digits that the count of bits has room for, the loops agree with the readers that take all
digits first. -/
lemma run_eq_leb128 (cursor : Cursor) (h : ∀ digits rest,
    split? cursor.rest = some (digits, rest) → 7 * digits.length < 2 ^ 32) :
    readUnsigned.run cursor = (unsigned <$> Reader.leb128).run cursor ∧
      readSigned.run cursor = (signed <$> Reader.leb128).run cursor := by
  obtain ⟨offset, bytes⟩ := cursor
  have hrun : ∀ {α : Type} (compute : List UInt8 → α),
      (compute <$> Reader.leb128).run ⟨offset, bytes⟩ =
        (split? bytes).map fun found =>
          (compute found.1, ⟨offset + found.1.length, found.2⟩) := by
    intro α compute
    rw [StateT.run_map]
    change ((split? bytes).map _).map _ = _
    rw [Option.map_map]
    rfl
  rw [hrun, hrun]
  cases hsplit : split? bytes with
  | none =>
    have hall := split?_eq_none_iff.mp hsplit
    exact ⟨(loop_eq_none_iff _ _ _ _ _).mpr hall, (loop_eq_none_iff _ _ _ _ _).mpr hall⟩
  | some found =>
    obtain ⟨digits, rest⟩ := found
    have hcount := h digits rest hsplit
    obtain ⟨more, last, rfl, rfl, hmore, hlast⟩ := exists_of_split? hsplit
    rw [readUnsigned_digits hmore hlast, readSigned_digits hmore hlast]
    have hnumber : enterAll enter 0 0 (more ++ [last]) = unsigned (more ++ [last]) := by
      apply UInt64.toNat_inj.mp
      rw [toNat_entered hcount, unsigned, UInt64.toNat_ofNat']
    rw [List.length_append] at hcount
    have hextended := @toInt_extended more last hcount
    rw [← signedValue_digits] at hextended
    have hsigned := eq_ofInt_of_emod hextended
    have hlength : (more ++ [last]).length = more.length + 1 := List.length_append
    rw [hnumber, hsigned, Option.map_some, Option.map_some]
    dsimp only
    rw [hlength]
    exact ⟨rfl, rfl⟩

section

variable {more : Nat} (hcount : 7 * (more + 1) < 2 ^ 32) (offset : Nat)

include hcount

lemma run_digits (value : Nat) (rest : List UInt8) :
    readUnsigned.run ⟨offset, digits more value ++ rest⟩ =
        some (unsigned (digits more value), ⟨offset + (digits more value).length, rest⟩) ∧
      readSigned.run ⟨offset, digits more value ++ rest⟩ =
        some (signed (digits more value), ⟨offset + (digits more value).length, rest⟩) := by
  have hshort : ∀ found after, split? (Cursor.mk offset (digits more value ++ rest)).rest =
      some (found, after) → 7 * found.length < 2 ^ 32 := by
    intro found after hsplit
    cases (split?_digits_append more value rest).symm.trans hsplit
    rwa [length_digits]
  obtain ⟨hunsigned, hsigned⟩ := run_eq_leb128 _ hshort
  rw [hunsigned, hsigned]
  have hread := reads_leb128 offset more value
  exact ⟨hread.map unsigned rest, hread.map signed rest⟩

/-- A number is read back from digits that hold it and that the count of bits has room for. -/
lemma reads_unsigned {value : Nat} (h : value < 128 ^ (more + 1)) :
    readUnsigned.Reads offset (digits more value) (UInt64.ofNat value) := by
  rw [← unsigned_digits h]
  exact fun rest => (run_digits hcount offset value rest).1

lemma reads_signed {value : Int} (h : FitsSigned (128 ^ (more + 1)) value) :
    readSigned.Reads offset (signedDigits more value) (Int64.ofInt value) := by
  intro rest
  have hread := (run_digits hcount offset (value % (128 ^ (more + 1) : Nat)).toNat rest).2
  change _ = some (signed (signedDigits more value), _) at hread
  rwa [signed, signedValue_signedDigits h] at hread

end

/-- How the loops read at a place of a section: nothing where no last digit comes, and else the
digits up to the first one, whose number is right modulo `2 ^ 64` unless the count of bits
overflows. -/
structure ReadsAt (bytes : List UInt8) (position : Nat) : Prop where
  unsigned_none_iff : readUnsigned.run ⟨position, bytes.drop position⟩ = none ↔
    ∀ byte ∈ bytes.drop position, 128 ≤ byte.toNat
  signed_none_iff : readSigned.run ⟨position, bytes.drop position⟩ = none ↔
    ∀ byte ∈ bytes.drop position, 128 ≤ byte.toNat
  number : ∀ more last rest, bytes.drop position = more ++ last :: rest →
    (∀ byte ∈ more, 128 ≤ byte.toNat) → last.toNat < 128 → ∃ unsigned signed,
      readUnsigned.run ⟨position, bytes.drop position⟩ =
        some (unsigned, ⟨position + (more.length + 1), rest⟩) ∧
      readSigned.run ⟨position, bytes.drop position⟩ =
        some (signed, ⟨position + (more.length + 1), rest⟩) ∧
      (7 * (more.length + 1) < 2 ^ 32 →
        unsigned.toNat = weightedSum (more ++ [last]) % 2 ^ 64 ∧
        signed.toInt % 2 ^ 64 = (weightedSum (more ++ [last]) -
          if 64 ≤ last.toNat % 128 then 2 ^ (7 * (more.length + 1)) else 0) % 2 ^ 64)
  /-- The readers that take all digits before they add them up read alike. -/
  same : (∀ digits rest, split? (bytes.drop position) = some (digits, rest) →
      7 * digits.length < 2 ^ 32) →
    readUnsigned.run ⟨position, bytes.drop position⟩ =
      (unsigned <$> Reader.leb128).run ⟨position, bytes.drop position⟩ ∧
    readSigned.run ⟨position, bytes.drop position⟩ =
      (signed <$> Reader.leb128).run ⟨position, bytes.drop position⟩

lemma readsAt (bytes : List UInt8) (position : Nat) : ReadsAt bytes position := by
  have hnone : (∀ byte ∈ bytes.drop position, isLast byte = false) ↔
      ∀ byte ∈ bytes.drop position, 128 ≤ byte.toNat :=
    forall₂_congr fun _ _ => isLast_eq_false_iff
  constructor
  case unsigned_none_iff => exact (loop_eq_none_iff _ _ _ _ _).trans hnone
  case signed_none_iff => exact (loop_eq_none_iff _ _ _ _ _).trans hnone
  case number =>
    intro more last rest hbytes hmore hlast
    have hmore' : ∀ byte ∈ more, isLast byte = false :=
      fun byte hbyte => isLast_eq_false_iff.mpr (hmore byte hbyte)
    have hlast' : isLast last = true := decide_eq_true hlast
    rw [hbytes]
    refine ⟨_, _, readUnsigned_digits hmore' hlast' position rest,
      readSigned_digits hmore' hlast' position rest, fun hcount => ?_⟩
    rw [weightedSum_eq]
    exact ⟨toNat_entered (by rwa [List.length_append]), toInt_extended hcount⟩
  case same => exact run_eq_leb128 ⟨position, bytes.drop position⟩

/-- Ten digits hold every word. -/
lemma fits_of_ten {more : Nat} (h : 9 ≤ more) : 2 ^ 64 ≤ 128 ^ (more + 1) :=
  calc 2 ^ 64 ≤ 128 ^ (9 + 1) := by decide
    _ ≤ 128 ^ (more + 1) := Nat.pow_le_pow_right (by decide) (by omega)

/-- The loops read at every place what the digits there spell, and read every unsigned and every
signed word back from any number of digits, minimal or not, that holds it. -/
theorem loops_read_digits :
    (∀ bytes position, ReadsAt bytes position) ∧
    (∀ (position more : Nat), 7 * (more + 1) < 2 ^ 32 →
      (∀ value : UInt64, value.toNat < 128 ^ (more + 1) →
        readUnsigned.Reads position (digits more value.toNat) value) ∧
      (∀ value : Int64, FitsSigned (128 ^ (more + 1)) value.toInt →
        readSigned.Reads position (signedDigits more value.toInt) value)) ∧
    ∀ more, 9 ≤ more → (∀ value : UInt64, value.toNat < 128 ^ (more + 1)) ∧
      ∀ value : Int64, FitsSigned (128 ^ (more + 1)) value.toInt := by
  refine ⟨readsAt, fun position more hcount => ⟨?_, ?_⟩, fun more hmore => ⟨?_, ?_⟩⟩
  · intro value hfits
    have hread := reads_unsigned hcount position hfits
    rwa [UInt64.ofNat_toNat] at hread
  · intro value hfits
    have hread := reads_signed hcount position hfits
    rwa [Int64.ofInt_toInt] at hread
  · intro value
    exact value.toNat_lt.trans_le (fits_of_ten hmore)
  · intro value
    have hlow := value.le_toInt
    have hhigh := value.toInt_lt
    have hten := Int.ofNat_le.mpr (fits_of_ten hmore)
    constructor <;> omega

/-- The least and the greatest signed word in ten digits, the least in eleven, which leave no bit of
the word for the sign to fill, and two digits between other bytes. -/
theorem loops_read_digits_extreme :
    let least : List UInt8 := [0x80, 0x80, 0x80, 0x80, 0x80, 0x80, 0x80, 0x80, 0x80, 0x7f]
    let greatest : List UInt8 := [0xff, 0xff, 0xff, 0xff, 0xff, 0xff, 0xff, 0xff, 0xff, 0x00]
    let padded : List UInt8 := [0x80, 0x80, 0x80, 0x80, 0x80, 0x80, 0x80, 0x80, 0x80, 0xff, 0x7f]
    7 * (10 + 1) < 2 ^ 32 ∧ FitsSigned (128 ^ (9 + 1)) Int64.minValue.toInt ∧
      readSigned.Reads 3 least Int64.minValue ∧ readSigned.Reads 3 greatest Int64.maxValue ∧
      readSigned.Reads 3 padded Int64.minValue ∧
      ∃ unsigned signed, readUnsigned.run ⟨1, [0xff, 0x7e, 5]⟩ = some (unsigned, ⟨3, [5]⟩) ∧
        readSigned.run ⟨1, [0xff, 0x7e, 5]⟩ = some (signed, ⟨3, [5]⟩) ∧
        unsigned.toNat = 16255 ∧ signed.toInt % 2 ^ 64 = (16255 - 2 ^ 14) % 2 ^ 64 := by
  intro least greatest padded
  obtain ⟨hreads, hinvert, hfits⟩ := loops_read_digits
  have hleast : least = signedDigits 9 Int64.minValue.toInt := by decide
  have hgreatest : greatest = signedDigits 9 Int64.maxValue.toInt := by decide
  have hpadded : padded = signedDigits 10 Int64.minValue.toInt := by decide
  have hten : ∀ value : Int64, FitsSigned (128 ^ (9 + 1)) value.toInt := (hfits 9 le_rfl).2
  obtain ⟨unsigned, signed, hunsigned, hsigned, hvalue⟩ :=
    (hreads [9, 0xff, 0x7e, 5] 1).number [0xff] 0x7e [5] rfl
      (List.forall_mem_singleton.mpr (by decide)) (by decide)
  refine ⟨by decide, hten _, ?_, ?_, ?_, unsigned, signed, hunsigned, hsigned,
    hvalue (by decide)⟩
  · rw [hleast]
    exact (hinvert 3 9 (by decide)).2 _ (hten _)
  · rw [hgreatest]
    exact (hinvert 3 9 (by decide)).2 _ (hten _)
  · rw [hpadded]
    exact (hinvert 3 10 (by decide)).2 _ ((hfits 10 (by decide)).2 _)

end Leb128

end BinaryFacts
