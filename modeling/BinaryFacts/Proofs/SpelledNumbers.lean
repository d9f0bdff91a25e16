import BinaryFacts.ExceptionFrame.Leb128
import Mathlib.Tactic.Lemma

/-!
# What LEB128 digits spell

The digits of a number, split off as a whole, and the number that they spell in radix 128, without
any bound on their count.
-/

namespace BinaryFacts

namespace Leb128

def isLast (byte : UInt8) : Bool := byte.toNat < 128

/-- The bytes of one number and what follows them; none where no last byte comes. -/
def split? : List UInt8 → Option (List UInt8 × List UInt8)
  | [] => none
  | byte :: rest =>
    if isLast byte then some ([byte], rest)
    else (split? rest).map fun (digits, rest) => (byte :: digits, rest)

/-- The digits' value in radix 128. -/
def magnitude : List UInt8 → Nat
  | [] => 0
  | byte :: rest => byte.toNat % 128 + 128 * magnitude rest

def unsigned (digits : List UInt8) : UInt64 := UInt64.ofNat (magnitude digits)

/-- Whether bit 6 of the last digit, the sign bit, is set. -/
def isNegative (digits : List UInt8) : Bool :=
  match digits.getLast? with
  | some byte => 64 ≤ byte.toNat % 128
  | none => false

def signedValue (digits : List UInt8) : Int :=
  if isNegative digits then (magnitude digits : Int) - (1 <<< (7 * digits.length) : Nat)
  else magnitude digits

def signed (digits : List UInt8) : Int64 := Int64.ofInt (signedValue digits)

lemma split?_eq_none_iff {bytes : List UInt8} :
    split? bytes = none ↔ ∀ byte ∈ bytes, isLast byte = false := by
  induction bytes with
  | nil => simp [split?]
  | cons byte bytes ih =>
    rw [split?]
    split
    · next h => simp [h]
    · next h => simp [h, ih]

end Leb128

/-- The digits of a LEB128 number. -/
def ExceptionFrame.Reader.leb128 : Reader (List UInt8) := fun cursor =>
  (Leb128.split? cursor.rest).map fun (digits, rest) =>
    (digits, ⟨cursor.offset + digits.length, rest⟩)

end BinaryFacts
