import BinaryFacts.ExceptionFrame.Pointer
import BinaryFacts.Proofs.SpelledNumbers
import Mathlib.Algebra.Order.Ring.Int
import Mathlib.Tactic.Positivity
import Mathlib.Tactic.Ring

/-!
# Writing numbers

The writers for the readers of words and of LEB128 numbers. A LEB128 number may be written in more
digits than it needs. Whatever fits is read back as it was, whatever follows it.
-/

namespace BinaryFacts

/-- Whether a signed number lies in the two's complement range of that many values. -/
def FitsSigned (range : Nat) (value : Int) : Prop :=
  -(range : Int) ≤ 2 * value ∧ 2 * value < (range : Int)

instance (range : Nat) (value : Int) : Decidable (FitsSigned range value) :=
  inferInstanceAs (Decidable (_ ∧ _))

lemma toNat_ofNat_byte {n : Nat} (h : n < 256) : (UInt8.ofNat n).toNat = n :=
  UInt8.toNat_ofNat_of_lt' h

def littleBytes : Nat → Nat → List UInt8
  | 0, _ => []
  | size + 1, value => UInt8.ofNat (value % 256) :: littleBytes size (value / 256)

/-- The word of `size` bytes that holds the low bytes of a number. -/
def Endian.bytes (order : Endian) (size value : Nat) : List UInt8 :=
  match order with
  | .little => littleBytes size value
  | .big => (littleBytes size value).reverse

@[simp]
lemma length_littleBytes (size value : Nat) : (littleBytes size value).length = size := by
  induction size generalizing value with
  | zero => rfl
  | succ size ih => rw [littleBytes, List.length_cons, ih]

namespace Endian

@[simp]
lemma length_bytes (order : Endian) (size value : Nat) :
    (order.bytes size value).length = size := by
  cases order with
  | little => exact length_littleBytes size value
  | big => rw [bytes, List.length_reverse, length_littleBytes]

lemma significant_bytes (order : Endian) (size value : Nat) :
    order.significant (order.bytes size value) = (littleBytes size value).reverse := by
  cases order <;> rfl

lemma foldr_littleBytes (size value : Nat) :
    (littleBytes size value).foldr (fun byte high => high * 256 + byte.toUInt64) 0 =
      UInt64.ofNat (value % 256 ^ size) := by
  induction size generalizing value with
  | zero => rw [pow_zero, Nat.mod_one]; rfl
  | succ size ih =>
    have hbyte : (UInt8.ofNat (value % 256)).toUInt64 = UInt64.ofNat (value % 256) := by
      apply UInt64.toNat_inj.mp
      rw [UInt8.toNat_toUInt64, toNat_ofNat_byte (by omega), UInt64.toNat_ofNat']
      omega
    rw [littleBytes, List.foldr_cons, ih, hbyte, pow_succ' 256 size, Nat.mod_mul,
      UInt64.ofNat_add, UInt64.ofNat_mul, UInt64.add_comm, UInt64.mul_comm]
    rfl

/-- A word is read back up to what its size cuts off. -/
theorem value_bytes (order : Endian) (size value : Nat) :
    order.value (order.bytes size value) = UInt64.ofNat (value % 256 ^ size) := by
  rw [Endian.value, significant_bytes, List.foldl_reverse]
  exact foldr_littleBytes size value

end Endian

lemma toInt_toInt64 (value : UInt64) :
    value.toInt64.toInt =
      if value.toNat < 2 ^ 63 then (value.toNat : Int) else value.toNat - 2 ^ 64 := by
  have hword := value.toNat_lt
  have hint : value.toInt64.toInt = (value.toNat : Int).bmod (2 ^ 64) := by
    rw [← Int64.toInt_toBitVec, BitVec.toInt_eq_toNat_bmod]
    rfl
  rw [hint, Int.bmod_def]
  split <;> split <;> omega

lemma one_shiftLeft_mul (bits count : Nat) : 1 <<< (bits * count) = (2 ^ bits) ^ count := by
  rw [Nat.one_shiftLeft, pow_mul]

lemma signExtend_ofNat {size : Nat} (hsize : size = 2 ∨ size = 4 ∨ size = 8) {value : UInt64}
    (h : FitsSigned (256 ^ size) value.toInt64.toInt) :
    ExceptionFrame.signExtend size (UInt64.ofNat (value.toNat % 256 ^ size)) = value := by
  have hword := value.toNat_lt
  have hbound : 1 <<< (8 * size) = 256 ^ size := one_shiftLeft_mul 8 size
  have hlow : (UInt64.ofNat (value.toNat % 256 ^ size)).toNat = value.toNat % 256 ^ size := by
    rw [UInt64.toNat_ofNat']
    obtain rfl | rfl | rfl := hsize <;> omega
  have htop : (UInt64.ofNat (256 ^ size)).toNat = 256 ^ size % 2 ^ 64 := UInt64.toNat_ofNat'
  rw [FitsSigned, toInt_toInt64] at h
  unfold ExceptionFrame.signExtend
  apply UInt64.toNat_inj.mp
  dsimp only
  rw [hbound, hlow]
  split
  · rw [hlow]
    obtain rfl | rfl | rfl := hsize <;> split at h <;> omega
  · rw [UInt64.toNat_sub, hlow, htop]
    obtain rfl | rfl | rfl := hsize <;> split at h <;> omega

namespace Leb128

/-- The low digits of a number, `more` digits and a last one. -/
def digits : Nat → Nat → List UInt8
  | 0, value => [UInt8.ofNat (value % 128)]
  | more + 1, value => UInt8.ofNat (value % 128 + 128) :: digits more (value / 128)

/-- The low digits of a signed number in two's complement. -/
def signedDigits (more : Nat) (value : Int) : List UInt8 :=
  digits more (value % (128 ^ (more + 1) : Nat)).toNat

@[simp]
lemma length_digits (more value : Nat) : (digits more value).length = more + 1 := by
  induction more generalizing value with
  | zero => rfl
  | succ more ih => rw [digits, List.length_cons, ih]

lemma split?_digits_append (more value : Nat) (rest : List UInt8) :
    split? (digits more value ++ rest) = some (digits more value, rest) := by
  induction more generalizing value with
  | zero =>
    have hlast : isLast (UInt8.ofNat (value % 128)) = true := by
      rw [isLast, toNat_ofNat_byte (by omega), decide_eq_true_eq]
      omega
    rw [digits, List.cons_append, split?, if_pos hlast]
    rfl
  | succ more ih =>
    have hmore : ¬ isLast (UInt8.ofNat (value % 128 + 128)) = true := by
      rw [isLast, toNat_ofNat_byte (by omega), decide_eq_true_eq]
      omega
    rw [digits, List.cons_append, split?, if_neg hmore, ih]
    rfl

lemma magnitude_digits (more value : Nat) :
    magnitude (digits more value) = value % 128 ^ (more + 1) := by
  induction more generalizing value with
  | zero =>
    rw [digits, magnitude, magnitude, toNat_ofNat_byte (by omega)]
    omega
  | succ more ih =>
    rw [digits, magnitude, ih, toNat_ofNat_byte (by omega), pow_succ' 128 (more + 1), Nat.mod_mul]
    omega

lemma getLast?_digits (more value : Nat) :
    ∃ last, (digits more value).getLast? = some last ∧
      last.toNat % 128 = value / 128 ^ more % 128 := by
  induction more generalizing value with
  | zero =>
    refine ⟨UInt8.ofNat (value % 128), rfl, ?_⟩
    rw [toNat_ofNat_byte (by omega), pow_zero, Nat.div_one, Nat.mod_mod]
  | succ more ih =>
    obtain ⟨last, hlast, hvalue⟩ := ih (value / 128)
    refine ⟨last, ?_, ?_⟩
    · rw [digits, List.getLast?_cons, hlast]
      rfl
    · rw [hvalue, Nat.div_div_eq_div_mul, pow_succ']

/-- The sign bit is the top bit of the value modulo the range of the digits. -/
lemma isNegative_digits_iff (more value : Nat) :
    isNegative (digits more value) = true ↔
      128 ^ (more + 1) ≤ 2 * (value % 128 ^ (more + 1)) := by
  obtain ⟨last, hlast, hvalue⟩ := getLast?_digits more value
  have hlow : value % 128 ^ more < 128 ^ more := Nat.mod_lt _ (by positivity)
  unfold isNegative
  rw [hlast]
  dsimp only
  rw [decide_eq_true_eq, hvalue, pow_succ, Nat.mod_mul]
  constructor
  · intro h
    have := Nat.mul_le_mul_left (128 ^ more) h
    omega
  · intro h
    by_contra hlt
    have := Nat.mul_le_mul_left (128 ^ more) (show value / 128 ^ more % 128 ≤ 63 by omega)
    omega

theorem unsigned_digits {more value : Nat} (h : value < 128 ^ (more + 1)) :
    unsigned (digits more value) = UInt64.ofNat value := by
  rw [unsigned, magnitude_digits, Nat.mod_eq_of_lt h]

theorem signedValue_signedDigits {more : Nat} {value : Int}
    (h : FitsSigned (128 ^ (more + 1)) value) : signedValue (signedDigits more value) = value := by
  have hshift : 1 <<< (7 * (more + 1)) = 128 ^ (more + 1) := one_shiftLeft_mul 7 (more + 1)
  have hsign := isNegative_digits_iff more (value % (128 ^ (more + 1) : Nat)).toNat
  obtain ⟨hlow, hhigh⟩ := h
  have hpos : 0 < 128 ^ (more + 1) := by positivity
  unfold signedValue signedDigits
  rw [length_digits, hshift, magnitude_digits]
  generalize 128 ^ (more + 1) = range at *
  have hmod : (value % (range : Int)).toNat % range = (value % (range : Int)).toNat :=
    Nat.mod_eq_of_lt (by have := Int.emod_lt_of_pos value (Int.natCast_pos.mpr hpos); omega)
  rw [hmod] at hsign ⊢
  -- a negative number is written as its distance to the range
  by_cases hnonneg : 0 ≤ value
  · have hself : value % (range : Int) = value := Int.emod_eq_of_lt hnonneg (by omega)
    rw [hself] at hsign ⊢
    rw [if_neg (by rw [hsign]; omega)]
    omega
  · have hself : value % (range : Int) = value + range := by
      rw [← Int.add_emod_right]
      exact Int.emod_eq_of_lt (by omega) (by omega)
    rw [hself] at hsign ⊢
    rw [if_pos (by rw [hsign]; omega)]
    omega

end Leb128

end BinaryFacts
